import NestDaq.Plugin.Control

/-!
# Wait loops end on the state they wait for

The invariant of the control thread. Between commands the device rests and at
most one state is unread; from a request to the end of its wait loop the unread
states and the automatic step still to come lead to the target, and no entry of
the queue names the target unless it was pushed after the request.
-/

namespace NestDaq.Plugin

open NestDaq.Transition

variable {device next : Device} {action : DeviceAction} {wait : Wait}

/-- Nothing is unread, or only the state that the device is in. -/
def Leftover (device : Device) : Prop :=
  device.unread = [] ∨
    (device.state = .idle ∨ device.state = .ready) ∧ device.unread = [device.state]

/-- The device stays where it is, unless its run finishes. -/
structure Resting (device : Device) : Prop where
  rests : device.state.automatic = none
  leftover : Leftover device

/-- The state allows the transition, which leads to the target. -/
def Allows (state : DeviceState) (transition : DeviceStateTransition) (target : DeviceState) :
    Prop :=
  ∃ next, state.after transition = some next ∧ next.settled = target

/-- The device finished its run between the state read and the request of `Stop`. -/
structure Overtaken (device : Device) (transition : DeviceStateTransition)
    (target : DeviceState) : Prop where
  stop : transition = .stop
  ready : target = .ready
  finished : device.state = .ready
  unread : device.unread = [.ready]
  entries : ∀ entry ∈ device.fStateQueue, device.runRequest ≤ entry.requests

/-- A transition is about to be requested. -/
structure Requesting (device : Device) (transition : DeviceStateTransition)
    (target : DeviceState) : Prop extends Resting device where
  allowed : Allows device.state transition target ∨ Overtaken device transition target

/-- The entry was pushed after the request, or, for a `Stop` that came too
late, after the request that started the run. -/
def Wait.Fresh (wait : Wait) (device : Device) (entry : Entry) : Prop :=
  if wait.accepted then wait.request ≤ entry.requests
  else wait.transition = .stop ∧ device.runRequest ≤ entry.requests

/-- A wait loop is running. -/
structure Awaiting (device : Device) (wait : Wait) : Prop where
  ahead : ∃ before later, device.upcoming = before ++ wait.target :: later ∧
    wait.target ∉ before ∧
      (later = [] ∧ device.state.settled = wait.target ∨
        wait.target = .running ∧ device.state = .ready ∧ later = [.ready])
  fresh : ∀ entry ∈ device.fStateQueue, entry.state = wait.target → wait.Fresh device entry
  requested : wait.request ≤ device.requests
  stop : wait.accepted = false → wait.transition = .stop

/-- The invariant of the control thread. -/
structure Invariant (session : Session) : Prop where
  runRequest : session.device.runRequest ≤ session.device.requests
  control :
    match session.control with
    | .commands _ => Resting session.device
    | .requesting transition target _ => Requesting session.device transition target
    | .waiting wait _ => Awaiting session.device wait

/-- A single command requests what the state it read allows, and waits for the
state to which the transition leads. -/
theorem allows_of_request {state : DeviceState} {cmd : Text} {transition : DeviceStateTransition}
    {target : DeviceState}
    (asks : (changeDeviceStateBySingleCommand state cmd).request = some (transition, target)) :
    Allows state transition target := by
  cases state <;> simp only [changeDeviceStateBySingleCommand] at asks <;> (try split at asks) <;>
    (try split at asks) <;> cases asks <;> exact ⟨_, rfl, rfl⟩

theorem Allows.target_ne {state target : DeviceState} {transition : DeviceStateTransition}
    (allows : Allows state transition target) : target ≠ state := by
  rcases allows with ⟨next, accepted, rfl⟩
  cases state <;> cases transition <;> cases accepted <;> decide

/-- Only `Stop` is requested while the device runs. -/
theorem Allows.of_running {target : DeviceState} {transition : DeviceStateTransition}
    (allows : Allows .running transition target) : transition = .stop ∧ target = .ready := by
  rcases allows with ⟨next, accepted, rfl⟩
  cases transition <;> cases accepted
  exact ⟨rfl, rfl⟩

theorem Leftover.unread_eq_nil (leftover : Leftover device) (running : device.state = .running) :
    device.unread = [] := by
  rcases leftover with none | ⟨idle | ready, _⟩
  · exact none
  · cases running.symm.trans idle
  · cases running.symm.trans ready

theorem Device.fStateQueue_eq_nil (none : device.unread = []) : device.fStateQueue = [] :=
  List.map_eq_nil_iff.mp (List.append_eq_nil_iff.mp none).1

/-- A resting device stays at rest; a run that finishes leaves one state unread. -/
theorem Resting.deviceStep (resting : Resting device)
    (stepped : deviceStep device action = some next) :
    Resting next ∧
      (next.state = device.state ∧ next.unread = device.unread ∨
        device.state = .running ∧ next.state = .ready ∧ next.unread = [.ready] ∧
          next.fStateQueue = []) := by
  rcases Device.deviceStep_cases stepped with
    ⟨state, steps, _⟩ | ⟨running, rfl⟩ | ⟨oldest, rest, oldestFirst, rfl⟩
  · cases resting.rests.symm.trans steps
  · have none := resting.leftover.unread_eq_nil running
    have one : (device.enter .ready).unread = [.ready] := by
      rw [Device.unread_enter, none, List.nil_append]
    constructor
    · exact ⟨rfl, Or.inr ⟨Or.inr rfl, one⟩⟩
    · exact Or.inr ⟨running, rfl, one, @Device.fStateQueue_eq_nil device none⟩
  · have same := Device.unread_push oldestFirst
    constructor
    · constructor
      · exact resting.rests
      · simpa only [Leftover, same] using resting.leftover
    · exact Or.inl ⟨rfl, same⟩

theorem Requesting.deviceStep {transition : DeviceStateTransition} {target : DeviceState}
    (requesting : Requesting device transition target)
    (numbers : device.runRequest ≤ device.requests)
    (stepped : deviceStep device action = some next) : Requesting next transition target := by
  rcases requesting.toResting.deviceStep stepped with
    ⟨resting, ⟨same, unread⟩ | ⟨running, ready, one, none⟩⟩
  · refine ⟨resting, ?_⟩
    rcases requesting.allowed with allowed | overtaken
    · exact Or.inl (same ▸ allowed)
    · refine Or.inr ⟨overtaken.stop, overtaken.ready, same.trans overtaken.finished,
        unread.trans overtaken.unread, ?_⟩
      intro entry member
      rw [(Device.requests_deviceStep stepped).2]
      rcases Device.mem_fStateQueue_deviceStep stepped member with old | now
      · exact overtaken.entries entry old
      · rw [now]
        exact numbers
  · refine ⟨resting, Or.inr ?_⟩
    rcases requesting.allowed with allowed | overtaken
    · rw [running] at allowed
      refine ⟨allowed.of_running.1, allowed.of_running.2, ready, one, ?_⟩
      intro entry member
      rw [none] at member
      cases member
    · cases running.symm.trans overtaken.finished

/-- The device thread moves the states still to come, and adds one only when a
run finishes. -/
theorem Device.upcoming_deviceStep (stepped : deviceStep device action = some next) :
    (next.upcoming = device.upcoming ∧ next.state.settled = device.state.settled ∧
        (next.state = device.state ∨ device.state.automatic.isSome)) ∨
      device.state = .running ∧ next.state = .ready ∧
        next.upcoming = device.upcoming ++ [.ready] := by
  rcases Device.deviceStep_cases stepped with
    ⟨state, steps, rfl⟩ | ⟨running, rfl⟩ | ⟨oldest, rest, oldestFirst, rfl⟩
  · have ends := DeviceState.automatic_of_automatic steps
    refine Or.inl ⟨?_, ?_, Or.inr (Option.isSome_of_mem steps)⟩
    · simp [upcoming, steps, ends]
    · rw [DeviceState.settled_of_automatic steps]
      exact DeviceState.settled_of_automatic_eq_none ends
  · refine Or.inr ⟨running, rfl, ?_⟩
    simp [upcoming, running, DeviceState.automatic]
  · refine Or.inl ⟨?_, rfl, Or.inl rfl⟩
    simp only [upcoming, Device.unread_push oldestFirst]

theorem Awaiting.deviceStep (awaiting : Awaiting device wait)
    (numbers : device.runRequest ≤ device.requests)
    (stepped : deviceStep device action = some next) : Awaiting next wait := by
  have counts := Device.requests_deviceStep stepped
  rcases awaiting.ahead with ⟨before, later, split, notBefore, ends⟩
  refine ⟨?_, ?_, counts.1 ▸ awaiting.requested, awaiting.stop⟩
  · rcases Device.upcoming_deviceStep stepped with ⟨same, settled, stays⟩ | ⟨running, ready, more⟩
    · refine ⟨before, later, same.trans split, notBefore, ?_⟩
      rcases ends with ⟨empty, final⟩ | ⟨isRunning, isReady, finished⟩
      · exact Or.inl ⟨empty, settled.trans final⟩
      · rcases stays with unchanged | moves
        · exact Or.inr ⟨isRunning, unchanged.trans isReady, finished⟩
        · rw [isReady] at moves
          cases moves
    · rcases ends with ⟨rfl, final⟩ | ⟨_, isReady, _⟩
      · rw [running] at final
        refine ⟨before, [.ready], ?_, notBefore, Or.inr ⟨final.symm, ready, rfl⟩⟩
        rw [more, split, List.append_assoc, List.cons_append, List.nil_append]
      · cases running.symm.trans isReady
  · intro entry member isTarget
    rcases Device.mem_fStateQueue_deviceStep stepped member with old | now
    · have fresh := awaiting.fresh entry old isTarget
      rwa [Wait.Fresh, counts.2]
    · rw [Wait.Fresh, now, counts.2]
      split
      · exact awaiting.requested
      · exact ⟨awaiting.stop (Bool.eq_false_iff.mpr ‹_›), numbers⟩

/-- A request that the device accepts leads to the target. -/
theorem Requesting.request {transition : DeviceStateTransition} {target : DeviceState}
    (requesting : Requesting device transition target) :
    Awaiting (device.changeDeviceState transition)
      ⟨transition, target, device.requests + 1, (device.state.after transition).isSome⟩ := by
  rcases requesting.allowed with allowed | overtaken
  · have differs := allowed.target_ne
    rcases allowed with ⟨state, accepted, settled⟩
    rcases Device.changeDeviceState_of_after accepted with ⟨isState, unread, queue, requests⟩
    -- What is left over is the state read, which is not the target.
    have notUnread : target ∉ device.unread := by
      rcases requesting.leftover with none | ⟨_, one⟩
      · simp [none]
      · simpa [one] using differs
    refine ⟨?_, ?_, requests.ge, ?_⟩
    · have upcoming : (device.changeDeviceState transition).upcoming =
          device.unread ++ state :: state.automatic.toList := by
        simp [Device.upcoming, unread, isState]
      cases steps : state.automatic with
      | none =>
          rw [DeviceState.settled_of_automatic_eq_none steps] at settled
          refine ⟨device.unread, [], ?_, notUnread, Or.inl ⟨rfl, ?_⟩⟩
          · rw [upcoming, steps, settled, Option.toList_none]
          · rw [isState, DeviceState.settled_of_automatic_eq_none steps, settled]
      | some last =>
          rw [DeviceState.settled_of_automatic steps] at settled
          subst settled
          refine ⟨device.unread ++ [state], [], ?_, ?_, Or.inl ⟨rfl, ?_⟩⟩
          · rw [upcoming, steps, Option.toList_some, List.append_assoc, List.singleton_append]
          · rw [List.mem_append, List.mem_singleton, not_or]
            refine ⟨notUnread, fun same => ?_⟩
            subst same
            cases steps.symm.trans (DeviceState.automatic_of_automatic steps)
          · rw [isState, DeviceState.settled_of_automatic steps]
    · intro entry member isTarget
      rw [queue] at member
      have inUnread : entry.state ∈ device.unread :=
        List.mem_append_left _ (List.mem_map_of_mem member)
      rw [isTarget] at inUnread
      exact absurd inUnread notUnread
    · intro refused
      rw [accepted] at refused
      cases refused
  · have refused : device.state.after transition = none := by
      rw [overtaken.finished, overtaken.stop]
      rfl
    rw [Device.changeDeviceState_of_refused refused, refused]
    refine ⟨⟨[], [], ?_, List.not_mem_nil, Or.inl ⟨rfl, ?_⟩⟩, ?_, Nat.le_refl _,
      fun _ => overtaken.stop⟩
    · have same : { device with requests := device.requests + 1 }.unread = device.unread := rfl
      rw [Device.upcoming, same, overtaken.unread, overtaken.ready]
      simp [overtaken.finished, DeviceState.automatic]
    · rw [overtaken.finished, overtaken.ready]
      rfl
    · intro entry member _
      exact ⟨overtaken.stop, overtaken.entries entry member⟩

/-- A wait loop goes on with an entry for another state, and its target leaves
the device at rest. -/
theorem Awaiting.waitForNext {entry : Entry} {rest : List Entry} (awaiting : Awaiting device wait)
    (queue : device.fStateQueue = entry :: rest) :
    (entry.state = wait.target → Resting device.dropNext) ∧
      (entry.state ≠ wait.target → Awaiting device.dropNext wait) := by
  have unread := Device.unread_dropNext queue
  rcases awaiting.ahead with ⟨before, later, split, notBefore, ends⟩
  have upcoming : device.upcoming = entry.state :: device.dropNext.upcoming := by
    rw [Device.upcoming, unread]
    rfl
  rw [upcoming] at split
  constructor
  · intro isTarget
    cases before with
    | cons first before =>
        rw [List.cons_append, List.cons.injEq] at split
        exact absurd (List.mem_cons.mpr (Or.inl (isTarget.symm.trans split.1))) notBefore
    | nil =>
        rw [List.nil_append, List.cons.injEq] at split
        have remains : device.dropNext.unread ++ device.state.automatic.toList = later := split.2
        rcases ends with ⟨rfl, final⟩ | ⟨_, isReady, rfl⟩
        · rcases List.append_eq_nil_iff.mp remains with ⟨none, stays⟩
          exact ⟨Option.toList_eq_nil_iff.mp stays, Or.inl none⟩
        · have rests : device.state.automatic = none := by rw [isReady]; rfl
          rw [rests, Option.toList_none, List.append_nil] at remains
          exact ⟨rests, Or.inr ⟨Or.inr isReady, remains.trans (by rw [← isReady]; rfl)⟩⟩
  · intro differs
    cases before with
    | nil =>
        rw [List.nil_append, List.cons.injEq] at split
        exact absurd split.1 differs
    | cons first before =>
        rw [List.cons_append, List.cons.injEq] at split
        refine ⟨⟨before, later, split.2, ?_, ends⟩, ?_, awaiting.requested, awaiting.stop⟩
        · exact fun member => notBefore (List.mem_cons_of_mem _ member)
        · exact fun other member => awaiting.fresh other (List.mem_of_mem_tail member)

/-! ## Runs -/

variable {session later : Session}

/-- The invariant is preserved by every step of either thread. -/
theorem Invariant.step {action : Action} (invariant : Invariant session)
    (stepped : step session action = some later) : Invariant later := by
  have numbers := invariant.runRequest
  have place := invariant.control
  cases action with
  | command cmd =>
      simp only [Plugin.step] at stepped
      split at stepped
      · rename_i isControl
        cases stepped
        rw [isControl] at place
        exact ⟨numbers, place⟩
      · cases stepped
  | readState =>
      simp only [Plugin.step] at stepped
      split at stepped
      · rename_i cmd rest isControl
        cases stepped
        rw [isControl] at place
        refine ⟨numbers, ?_⟩
        cases asks : (changeDeviceStateBySingleCommand session.device.state cmd).request with
        | none => simpa only [asks] using place
        | some request =>
            simp only
            exact ⟨place, Or.inl (allows_of_request asks)⟩
      · cases stepped
  | request =>
      simp only [Plugin.step] at stepped
      split at stepped
      · rename_i transition target rest isControl
        cases stepped
        rw [isControl] at place
        exact ⟨session.device.runRequest_changeDeviceState numbers, place.request⟩
      · cases stepped
  | waitForNext =>
      simp only [Plugin.step] at stepped
      split at stepped
      · rename_i wait rest entry entries isControl queue
        cases stepped
        rw [isControl] at place
        refine ⟨numbers, ?_⟩
        by_cases isTarget : entry.state = wait.target
        · simpa only [isTarget, if_true] using (place.waitForNext queue).1 isTarget
        · simpa only [isTarget, if_false] using (place.waitForNext queue).2 isTarget
      · cases stepped
  | device action =>
      rcases Option.map_eq_some_iff.mp stepped with ⟨next, moved, rfl⟩
      have counts := Device.requests_deviceStep moved
      constructor
      · simpa only [counts] using numbers
      · cases isControl : session.control with
        | commands rest =>
            rw [isControl] at place
            simpa only [isControl] using (place.deviceStep moved).1
        | requesting transition target rest =>
            rw [isControl] at place
            simpa only [isControl] using place.deviceStep numbers moved
        | waiting wait rest =>
            rw [isControl] at place
            simpa only [isControl] using place.deviceStep numbers moved

section Places

variable {transition : DeviceStateTransition} {target : DeviceState} {rest : List Text}

theorem Invariant.resting (invariant : Invariant session)
    (isControl : session.control = .commands rest) : Resting session.device := by
  have place := invariant.control
  rwa [isControl] at place

theorem Invariant.requesting (invariant : Invariant session)
    (isControl : session.control = .requesting transition target rest) :
    Requesting session.device transition target := by
  have place := invariant.control
  rwa [isControl] at place

theorem Invariant.awaiting (invariant : Invariant session)
    (isControl : session.control = .waiting wait rest) : Awaiting session.device wait := by
  have place := invariant.control
  rwa [isControl] at place

end Places

/-- The control thread is in a wait loop. -/
def Waits (session : Session) : Prop :=
  ∃ wait rest, session.control = .waiting wait rest

/-- The steps that follow when the device leaves a state by itself: entering the
next one, its push and its `WaitForNext`. -/
def DeviceState.stepsLeft (state : DeviceState) : Nat :=
  if state.automatic.isSome ∨ state = .running then 3 else 0

/-- A bound on the steps that a wait loop still takes. -/
def Device.remaining (device : Device) : Nat :=
  device.state.stepsLeft + 2 * device.entered.length + device.fStateQueue.length

theorem Device.remaining_deviceStep (stepped : deviceStep device action = some next) :
    next.remaining < device.remaining := by
  rcases Device.deviceStep_cases stepped with
    ⟨state, steps, rfl⟩ | ⟨running, rfl⟩ | ⟨oldest, rest, oldestFirst, rfl⟩
  · have leaves : device.state.stepsLeft = 3 := if_pos (Or.inl (Option.isSome_of_mem steps))
    have stays : state.stepsLeft = 0 := by
      cases start : device.state <;> rw [start] at steps <;> cases steps <;> rfl
    simp only [remaining, enter, stays, leaves, List.length_append, List.length_singleton]
    omega
  · have leaves : device.state.stepsLeft = 3 := if_pos (Or.inr running)
    have stays : DeviceState.ready.stepsLeft = 0 := rfl
    simp only [remaining, enter, stays, leaves, List.length_append, List.length_singleton]
    omega
  · simp only [remaining, oldestFirst, List.length_append, List.length_cons, List.length_nil]
    omega

/-- Every step taken during a wait loop uses up the bound. -/
theorem remaining_step {action : Action} (waits : Waits session)
    (stepped : step session action = some later) :
    later.device.remaining < session.device.remaining := by
  rcases waits with ⟨wait, rest, isControl⟩
  cases action with
  | command cmd => simp [Plugin.step, isControl] at stepped
  | readState => simp [Plugin.step, isControl] at stepped
  | request => simp [Plugin.step, isControl] at stepped
  | waitForNext =>
      simp only [Plugin.step, isControl] at stepped
      split at stepped
      · rename_i queue
        cases stepped
        simp [Device.remaining, Device.dropNext, queue]
      · cases stepped
  | device action =>
      rcases Option.map_eq_some_iff.mp stepped with ⟨next, moved, rfl⟩
      exact Device.remaining_deviceStep moved

/-- A run inside one wait loop is no longer than the bound. -/
theorem length_le_remaining {actions : List Action} {last : Session}
    (reached : run step session actions = some last)
    (waits : Always step Waits session actions) : actions.length ≤ session.device.remaining := by
  induction actions generalizing session with
  | nil => exact Nat.zero_le _
  | cons action rest ih =>
      rcases (run_cons_eq_some_iff _ _ _ _ _).mp reached with ⟨next, stepped, ran⟩
      have fewer := remaining_step waits.1 stepped
      have bound := ih ran (waits.2 next stepped)
      exact Nat.lt_of_le_of_lt bound fewer

/-- The device is `Idle`, the queue holds at most this `Idle`, and no command runs yet. -/
structure Initial (session : Session) : Prop where
  control : ∃ rest, session.control = .commands rest
  idle : session.device.state = .idle
  queue : session.device.unread = [] ∨ session.device.unread = [.idle]
  runRequest : session.device.runRequest = 0

theorem Initial.invariant (initial : Initial session) : Invariant session := by
  rcases initial.control with ⟨rest, isControl⟩
  constructor
  · rw [initial.runRequest]
    exact Nat.zero_le _
  · rw [isControl]
    constructor
    · rw [initial.idle]
      rfl
    · rw [Leftover, initial.idle]
      rcases initial.queue with none | one
      · exact Or.inl none
      · exact Or.inr ⟨Or.inl rfl, one⟩

/-- Requests are accepted unless the device was faster than `Stop`; a wait loop
ends on an entry pushed after its own request, or after the start of the run it
wanted to stop; and the state it waits for is in the queue, about to be pushed,
or the one that the device enters next by itself. -/
structure Sound (session : Session) : Prop where
  accepted : ∀ transition target rest, session.control = .requesting transition target rest →
    (session.device.state.after transition).isSome ∨
      transition = .stop ∧ session.device.state = .ready
  fresh : ∀ wait rest entry entries, session.control = .waiting wait rest →
    session.device.fStateQueue = entry :: entries → entry.state = wait.target →
      wait.Fresh session.device entry
  comes : ∀ wait rest, session.control = .waiting wait rest →
    wait.target ∈ session.device.upcoming

theorem Invariant.sound (invariant : Invariant session) : Sound session := by
  constructor
  · intro transition target rest isControl
    rcases (invariant.requesting isControl).allowed with ⟨state, accepted, _⟩ | overtaken
    · exact Or.inl (Option.isSome_of_mem accepted)
    · exact Or.inr ⟨overtaken.stop, overtaken.finished⟩
  · intro wait rest entry entries isControl queue isTarget
    apply (invariant.awaiting isControl).fresh entry _ isTarget
    rw [queue]
    exact List.mem_cons_self
  · intro wait rest isControl
    rcases (invariant.awaiting isControl).ahead with ⟨before, after, split, _⟩
    rw [split]
    exact List.mem_append_right _ List.mem_cons_self

/-- State commands neither hang nor return early: in every interleaving of the
commands with the device, every state reached is sound, and no wait loop takes
more steps than `remaining` allows. -/
theorem commands_sound (initial : Initial session) {actions : List Action} {last : Session}
    (reached : run step session actions = some last) :
    Sound last ∧ ∀ more final, run step last more = some final → Always step Waits last more →
      more.length ≤ last.device.remaining := by
  have holds : Invariant last :=
    run_invariant (fun invariant _ stepped => Invariant.step invariant stepped) initial.invariant
      (meets_of_forall (fun _ _ => True.intro) session actions) reached
  exact ⟨holds.sound, fun more final ran waits => length_le_remaining ran waits⟩

/-- A device in `Idle` whose initial `Idle` nobody has read. -/
def startSession : Session where
  control := .commands []
  device := ⟨.idle, [], [⟨.idle, 0⟩], 0, 0⟩
  fResetDeviceRequested := false

/-- The wait loop of `INIT DEVICE` skips the initial `Idle`. -/
theorem commands_sound_initDevice :
    ∃ last, run step startSession
        [.command FairmqCommand.initDevice, .readState, .request, .waitForNext,
          .device .push] = some last ∧
      last.device.fStateQueue = [⟨.initializingDevice, 1⟩] ∧ Sound last ∧
        ∀ more final, run step last more = some final → Always step Waits last more →
          more.length ≤ last.device.remaining :=
  ⟨_, rfl, rfl, @commands_sound startSession ⟨⟨[], rfl⟩, rfl, Or.inr rfl, rfl⟩
    [.command FairmqCommand.initDevice, .readState, .request, .waitForNext, .device .push] _ rfl⟩

end NestDaq.Plugin
