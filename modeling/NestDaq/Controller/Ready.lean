import Mathlib.Data.Nat.Find
import NestDaq.Controller.Process
import NestDaq.Plugin.Handled

/-!
# Waiting for a system in several states

Before `RUN` the controller has the instances connect and initialise their tasks, and
waits after each of the two. `CONNECT` leaves an instance in the state of the furthest
progress, but a wait loop ends only when all instances that it polls show the same state.
-/

namespace NestDaq.Controller

open NestDaq.Message
open NestDaq.Plugin
open NestDaq.Registry
open NestDaq.Store
open NestDaq.Transition

/-- `CONNECT` brings the instance to `DeviceReady`. -/
def Connects (state : DeviceState) : Prop :=
  state = .idle ∨ state = .initialized ∨ state = .bound ∨ state = .deviceReady

/-- A state in which an instance rests. -/
def Rests (state : DeviceState) : Prop :=
  Connects state ∨ state = .ready ∨ state = .running

theorem afterMultiCommand_connect {state : DeviceState} (rests : Rests state) :
    state.afterMultiCommand FairmqCommand.connect =
      if state = .ready ∨ state = .running then state else .deviceReady := by
  rcases rests with (rfl | rfl | rfl | rfl) | rfl | rfl <;> rfl

theorem afterMultiCommand_initTask {state : DeviceState} (rests : Rests state) :
    (state.afterMultiCommand FairmqCommand.connect).afterMultiCommand FairmqCommand.initTask =
      if state = .running then .running else .ready := by
  rcases rests with (rfl | rfl | rfl | rfl) | rfl | rfl <;> rfl

theorem Connects.not_further {state : DeviceState} (connects : Connects state) :
    state ≠ .ready ∧ state ≠ .running := by
  rcases connects with rfl | rfl | rfl | rfl <;> decide

/-- On the way of `CONNECT` an instance that is not yet in `DeviceReady` does not get further,
and the other ones stay where they are. -/
theorem state_onTheWay {session now : Plugin.Session} (atRest : AtRest session)
    (rests : Rests session.device.state) (onTheWay : OnTheWay FairmqCommand.connect session now) :
    (now.device.state = .ready ↔ session.device.state = .ready) ∧
      (now.device.state = .running ↔ session.device.state = .running) := by
  have settled (further : session.device.state = .ready ∨ session.device.state = .running) :
      now.device.state = session.device.state := by
    apply atRest.state_onTheWay onTheWay
    rcases further with state | state <;> rw [state] <;> rfl
  rcases rests with connects | ready | running
  · have early : Early now := by
      apply atRest.early_onTheWay onTheWay
      · rcases connects with state | state | state | state <;> rw [state] <;> decide
      · rcases connects with state | state | state | state <;> rw [state] <;> decide
    have further := connects.not_further
    exact ⟨iff_of_false early.ne_ready further.1, iff_of_false early.ne_running further.2⟩
  · rw [settled (Or.inl ready)]
    exact ⟨Iff.rfl, Iff.rfl⟩
  · rw [settled (Or.inr running)]
    exact ⟨Iff.rfl, Iff.rfl⟩

/-! ## What a wait loop sees -/

section Loops

variable {ι : Type} {gui : WebGui} {db : Db} {loops : List (List Text)} {keys targets : List Text}
  {stateKey : ι → Text} {system connected initialized : ι → Plugin.Session}

/-- The wait loop with these key patterns polls the instance. -/
def Polls (gui : WebGui) (keys : List Text) (stateKey : ι → Text) (i : ι) : Prop :=
  ∃ key ∈ keys,
    Glob.stringmatch (Text.join [topPrefix, key, fairMQStatePrefix] gui.fSeparator) (stateKey i)

/-- The patterns of the wait loops find state keys of the instances only, and the registry has
the state of each instance. -/
structure Observes (gui : WebGui) (db : Db) (loops : List (List Text)) (stateKey : ι → Text)
    (system : ι → Plugin.Session) : Prop where
  found : ∀ keys ∈ loops, ∀ key ∈ keys.flatMap (gui.stateKeys db), ∃ i, key = stateKey i
  stored : ∀ i, Store.get db (stateKey i) = some (system i).device.state.name

theorem Observes.mem_found_iff (observes : Observes gui db loops stateKey system)
    (isLoop : keys ∈ loops) {key : Text} :
    key ∈ keys.flatMap (gui.stateKeys db) ↔ ∃ i, Polls gui keys stateKey i ∧ key = stateKey i := by
  constructor
  · intro member
    rcases observes.found keys isLoop key member with ⟨i, rfl⟩
    rcases List.mem_flatMap.mp member with ⟨selection, isKey, inScan⟩
    exact ⟨i, ⟨selection, isKey, ((mem_scan _).mp inScan).2⟩, rfl⟩
  · rintro ⟨i, ⟨selection, isKey, matched⟩, rfl⟩
    have stored : stateKey i ∈ db := by
      apply AList.lookup_isSome.mp
      have found := observes.stored i
      rw [Store.get] at found
      split at found
      · rename_i isString
        rw [isString]
        rfl
      · cases found
    exact List.mem_flatMap.mpr ⟨selection, isKey, (mem_scan _).mpr ⟨stored, matched⟩⟩

/-- A wait loop ends when some target is the state of all instances that it polls. -/
theorem Observes.waitDone_iff (observes : Observes gui db loops stateKey system)
    (isLoop : keys ∈ loops) (some : targets ≠ []) :
    gui.waitDone db keys targets = true ↔
      ∃ target ∈ targets, ∀ i, Polls gui keys stateKey i →
        (system i).device.state.name = target := by
  have shown (target : Text) :
      (∀ text ∈ (keys.flatMap (gui.stateKeys db)).filterMap (Store.get db), text = target) ↔
        ∀ i, Polls gui keys stateKey i → (system i).device.state.name = target := by
    constructor
    · intro all i polled
      apply all
      have isFound := (observes.mem_found_iff isLoop).mpr ⟨i, polled, rfl⟩
      exact List.mem_filterMap.mpr ⟨_, isFound, observes.stored i⟩
    · intro all text member
      rcases List.mem_filterMap.mp member with ⟨key, isFound, isText⟩
      rcases (observes.mem_found_iff isLoop).mp isFound with ⟨i, polled, rfl⟩
      exact (Option.some.inj (isText.symm.trans (observes.stored i))).trans (all i polled)
  simp only [WebGui.waitDone, Bool.or_eq_true, decide_eq_true_iff, List.any_eq_true,
    List.all_eq_true, shown]
  constructor
  · rintro (none | done)
    · -- nobody is polled, and every target will do
      rcases List.exists_mem_of_ne_nil _ some with ⟨target, isTarget⟩
      refine ⟨target, isTarget, fun i polled => ?_⟩
      have isFound := (observes.mem_found_iff isLoop).mpr ⟨i, polled, rfl⟩
      rw [none] at isFound
      cases isFound
    · exact done
  · exact Or.inr

theorem waitDeviceReadyTargets_ne_nil : waitDeviceReadyTargets ≠ [] :=
  List.cons_ne_nil _ _

theorem waitReadyTargets_ne_nil : waitReadyTargets ≠ [] :=
  List.cons_ne_nil _ _

/-- The instances that a wait loop polls are in states that `CONNECT` takes to `DeviceReady`,
or all in `Ready`, or all in `Running`. -/
def Uniform (gui : WebGui) (keys : List Text) (stateKey : ι → Text)
    (system : ι → Plugin.Session) : Prop :=
  (∀ i, Polls gui keys stateKey i → Connects (system i).device.state) ∨
    (∀ i, Polls gui keys stateKey i → (system i).device.state = .ready) ∨
      ∀ i, Polls gui keys stateKey i → (system i).device.state = .running

/-- An ended loop for `waitDeviceReadyTargets` has seen instances of a kind. -/
theorem uniform_of_waitDone {now : ι → Plugin.Session} (isLoop : keys ∈ loops)
    (atRest : ∀ i, AtRest (system i)) (rests : ∀ i, Rests (system i).device.state)
    (onTheWay : ∀ i, OnTheWay FairmqCommand.connect (system i) (now i))
    (observes : Observes gui db loops stateKey now)
    (done : gui.waitDone db keys waitDeviceReadyTargets = true) :
    Uniform gui keys stateKey system := by
  have state (i : ι) := state_onTheWay (atRest i) (rests i) (onTheWay i)
  rcases (observes.waitDone_iff isLoop waitDeviceReadyTargets_ne_nil).mp done with
    ⟨target, isTarget, shown⟩
  simp only [waitDeviceReadyTargets, List.mem_cons, List.not_mem_nil, or_false] at isTarget
  rcases isTarget with rfl | rfl | rfl
  · apply Or.inl
    intro i polled
    have here := DeviceState.name_injective (shown i polled)
    rcases rests i with connects | ready | running
    · exact connects
    · cases here.symm.trans ((state i).1.mpr ready)
    · cases here.symm.trans ((state i).2.mpr running)
  · apply Or.inr ∘ Or.inl
    exact fun i polled => (state i).1.mp (DeviceState.name_injective (shown i polled))
  · apply Or.inr ∘ Or.inr
    exact fun i polled => (state i).2.mp (DeviceState.name_injective (shown i polled))

/-- After `CONNECT` the exit test succeeds for instances of a kind. -/
theorem waitDone_connect (isLoop : keys ∈ loops) (rests : ∀ i, Rests (system i).device.state)
    (after : ∀ i, (connected i).device.state =
      (system i).device.state.afterMultiCommand FairmqCommand.connect)
    (observes : Observes gui db loops stateKey connected)
    (uniform : Uniform gui keys stateKey system) :
    gui.waitDone db keys waitDeviceReadyTargets = true := by
  rw [observes.waitDone_iff isLoop waitDeviceReadyTargets_ne_nil]
  have state (i : ι) := (after i).trans (afterMultiCommand_connect (rests i))
  rcases uniform with connects | ready | running
  · refine ⟨DeviceState.deviceReady.name, List.mem_cons_self, fun i polled => ?_⟩
    have further := (connects i polled).not_further
    rw [state, if_neg (not_or.mpr further)]
  · refine ⟨DeviceState.ready.name, by simp [waitDeviceReadyTargets], fun i polled => ?_⟩
    rw [state, if_pos (Or.inl (ready i polled)), ready i polled]
  · refine ⟨DeviceState.running.name, by simp [waitDeviceReadyTargets], fun i polled => ?_⟩
    rw [state, if_pos (Or.inr (running i polled)), running i polled]

/-- After `INIT TASK` it succeeds as well. -/
theorem waitDone_initTask (isLoop : keys ∈ loops) (rests : ∀ i, Rests (system i).device.state)
    (after : ∀ i, (initialized i).device.state =
      ((system i).device.state.afterMultiCommand FairmqCommand.connect).afterMultiCommand
        FairmqCommand.initTask)
    (observes : Observes gui db loops stateKey initialized)
    (uniform : Uniform gui keys stateKey system) :
    gui.waitDone db keys waitReadyTargets = true := by
  rw [observes.waitDone_iff isLoop waitReadyTargets_ne_nil]
  have state (i : ι) := (after i).trans (afterMultiCommand_initTask (rests i))
  have ready (all : ∀ i, Polls gui keys stateKey i → (system i).device.state ≠ .running) :
      ∃ target ∈ waitReadyTargets, ∀ i, Polls gui keys stateKey i →
        (initialized i).device.state.name = target := by
    refine ⟨DeviceState.ready.name, List.mem_cons_self, fun i polled => ?_⟩
    rw [state, if_neg (all i polled)]
  rcases uniform with connects | isReady | running
  · exact ready fun i polled => (connects i polled).not_further.2
  · apply ready
    intro i polled isRunning
    cases (isReady i polled).symm.trans isRunning
  · refine ⟨DeviceState.running.name, by simp [waitReadyTargets], fun i polled => ?_⟩
    rw [state, if_pos (running i polled)]

end Loops

section Steps

variable {gui : WebGui} {polls : Nat → Db} {targets : List Text} {loops : List (List Text)}

/-- Wait loops end at one poll. -/
theorem endsAt_unique {waits : List (List Text × List Text)} {time later other : Nat}
    (ends : gui.EndsAt polls waits time later) (endsOther : gui.EndsAt polls waits time other) :
    later = other := by
  induction waits generalizing time with
  | nil => exact ends.trans endsOther.symm
  | cons wait rest ih =>
      rcases ends with ⟨last, after, done, before, ends⟩
      rcases endsOther with ⟨last', after', done', before', endsOther⟩
      have same : last = last' := by
        rcases Nat.lt_trichotomy last last' with earlier | same | earlier
        · cases done.symm.trans (before' last after earlier)
        · exact same
        · cases done'.symm.trans (before last' after' earlier)
      exact ih ends (same ▸ endsOther)

/-- Each of the loops has seen its end by then. -/
theorem exists_waitDone_of_endsAt {time later : Nat}
    (ends : gui.EndsAt polls (loops.map fun keys => (keys, targets)) time later) :
    time ≤ later ∧ ∀ keys ∈ loops, ∃ poll, poll < later ∧
      gui.waitDone (polls poll) keys targets = true := by
  induction loops generalizing time with
  | nil => exact ⟨Nat.le_of_eq (Eq.symm ends), nofun⟩
  | cons first rest ih =>
      rcases ends with ⟨last, after, done, -, ends⟩
      rcases ih ends with ⟨atLeast, others⟩
      refine ⟨by omega, fun keys member => ?_⟩
      rcases List.mem_cons.mp member with rfl | member
      · exact ⟨last, by omega, done⟩
      · exact others keys member

/-- Loops whose tests succeed from some poll on end. -/
theorem exists_endsAt {start : Nat} (done : ∀ keys ∈ loops, ∀ time, start ≤ time →
    gui.waitDone (polls time) keys targets = true) (time : Nat) :
    ∃ later, gui.EndsAt polls (loops.map fun keys => (keys, targets)) time later := by
  induction loops generalizing time with
  | nil => exact ⟨time, rfl⟩
  | cons first rest ih =>
      have some : ∃ poll, time ≤ poll ∧ gui.waitDone (polls poll) first targets = true :=
        ⟨max start time, Nat.le_max_right _ _,
          done first List.mem_cons_self _ (Nat.le_max_left _ _)⟩
      classical
      have first' := Nat.find_spec some
      rcases ih (fun keys member => done keys (List.mem_cons_of_mem _ member))
        (Nat.find some + 1) with ⟨later, ends⟩
      refine ⟨later, Nat.find some, first'.1, first'.2, fun poll after before => ?_, ends⟩
      rw [Bool.eq_false_iff]
      exact fun isDone => Nat.find_min some before ⟨after, isDone⟩

/-- The messages of the steps. -/
def WebGui.messages (gui : WebGui) (services instances : PTree) (steps : List WebGui.PublishStep) :
    List Effect :=
  steps.flatMap fun
    | .publish cmd => [.publish gui.fChannelName (gui.toMessage services instances cmd)]
    | .wait _ => []

/-- Steps that are all taken have published their messages. -/
theorem effects_of_publishAll {request : Request} {services instances : PTree}
    {steps : List WebGui.PublishStep} {fuel time : Nat} {effects : List Effect}
    (taken : gui.publishAll request services instances fuel steps time = .ok effects) :
    effects = gui.messages services instances steps := by
  induction steps generalizing time effects with
  | nil =>
      cases taken
      rfl
  | cons step rest ih =>
      cases step with
      | publish cmd =>
          rw [WebGui.publishAll] at taken
          cases others : gui.publishAll request services instances fuel rest time with
          | error fault => simp [others, bind, Except.bind] at taken
          | ok later =>
              rw [others] at taken
              cases taken
              rw [ih others]
              rfl
      | wait targets =>
          rw [WebGui.publishAll] at taken
          split at taken
          · cases taken
          · exact ih taken

end Steps

/-! ## Publishing `RUN` -/

section Run

variable {ι : Type} {gui : WebGui} {request : Request} {services instances : PTree}
  {stateKey : ι → Text} {system connected initialized : ι → Plugin.Session}

/-- The wait loops of a command, with their key patterns. -/
def loopsOf (gui : WebGui) (services instances : PTree) : List (List Text) :=
  gui.waitKeys services.values instances.values

/-- At this poll the wait loops behind `CONNECT` have ended, and `INIT TASK` is published. -/
def TaskPublished (gui : WebGui) (request : Request) (services instances : PTree) (time : Nat) :
    Prop :=
  ∃ later ≤ time, gui.EndsAt request.polls
    ((loopsOf gui services instances).map fun keys => (keys, waitDeviceReadyTargets)) 0 later

/-- What the controller polls of instances that rest in some states and handle the two commands
completely: each shows where it is on the way of `CONNECT`, and that it has handled `CONNECT`
from some poll on as long as `INIT TASK` is not published; from some poll behind that it shows
that it has handled `INIT TASK`. -/
structure Serves (gui : WebGui) (request : Request) (services instances : PTree)
    (stateKey : ι → Text) (system connected initialized : ι → Plugin.Session) : Prop where
  atRest : ∀ i, AtRest (system i)
  rests : ∀ i, Rests (system i).device.state
  connects : ∀ i, Handles FairmqCommand.connect (system i) (connected i)
  initializes : ∀ i, Handles FairmqCommand.initTask (connected i) (initialized i)
  connecting : ∀ time, ¬ TaskPublished gui request services instances time →
    ∃ now : ι → Plugin.Session, (∀ i, OnTheWay FairmqCommand.connect (system i) (now i)) ∧
      Observes gui (request.polls time) (loopsOf gui services instances) stateKey now
  connectHandled : ∃ start, ∀ time, start ≤ time →
    ¬ TaskPublished gui request services instances time →
      Observes gui (request.polls time) (loopsOf gui services instances) stateKey connected
  initTaskHandled : ∃ start, ∀ time, start ≤ time →
    TaskPublished gui request services instances time →
      Observes gui (request.polls time) (loopsOf gui services instances) stateKey initialized

/-- All wait loops of a `RUN` with both flags end, and `RUN` is published. -/
def RunPublished (gui : WebGui) (request : Request) (services instances : PTree) : Prop :=
  ∃ fuel, gui.publishAll request services instances fuel
      (WebGui.publishSteps FairmqCommand.run true true) 0 =
    .ok ([FairmqCommand.connect, FairmqCommand.initTask, FairmqCommand.run].map fun cmd =>
      .publish gui.fChannelName (gui.toMessage services instances cmd))

theorem publishSteps_run : WebGui.publishSteps FairmqCommand.run true true =
    [.publish FairmqCommand.connect, .wait waitDeviceReadyTargets, .publish FairmqCommand.initTask,
      .wait waitReadyTargets, .publish FairmqCommand.run] := by
  decide +kernel

/-- `RUN` is published when the loops behind `CONNECT`, and then those behind `INIT TASK`, have
ended. -/
theorem runPublished_iff_endsAt : RunPublished gui request services instances ↔
    ∃ middle later,
      gui.EndsAt request.polls
          ((loopsOf gui services instances).map fun keys => (keys, waitDeviceReadyTargets))
          0 middle ∧
        gui.EndsAt request.polls
          ((loopsOf gui services instances).map fun keys => (keys, waitReadyTargets))
          middle later := by
  have waits : gui.stepWaits services instances (WebGui.publishSteps FairmqCommand.run true true) =
      ((loopsOf gui services instances).map fun keys => (keys, waitDeviceReadyTargets)) ++
        ((loopsOf gui services instances).map fun keys => (keys, waitReadyTargets)) := by
    simp [publishSteps_run, WebGui.stepWaits, loopsOf]
  have spec := @WebGui.publishAll_spec gui request services instances
    (WebGui.publishSteps FairmqCommand.run true true) 0
  rw [waits] at spec
  constructor
  · rintro ⟨fuel, taken⟩
    rcases spec.1 fuel _ taken with ⟨later, ends⟩
    rcases (WebGui.endsAt_append _ _ _ _).mp ends with ⟨middle, first, second⟩
    exact ⟨middle, later, first, second⟩
  · rintro ⟨middle, later, first, second⟩
    rcases spec.2 ⟨later, (WebGui.endsAt_append _ _ _ _).mpr ⟨middle, first, second⟩⟩ with
      ⟨fuel, taken⟩
    rcases taken fuel (Nat.le_refl _) with ⟨effects, equal⟩
    refine ⟨fuel, equal.trans (congrArg Except.ok ?_)⟩
    rw [effects_of_publishAll equal, publishSteps_run]
    rfl

variable (serves : Serves gui request services instances stateKey system connected initialized)

include serves

theorem Serves.after (i : ι) :
    (connected i).device.state =
        (system i).device.state.afterMultiCommand FairmqCommand.connect ∧
      (initialized i).device.state =
        ((system i).device.state.afterMultiCommand FairmqCommand.connect).afterMultiCommand
          FairmqCommand.initTask := by
  have first := (serves.atRest i).handles (serves.connects i)
  have second := first.1.handles (serves.initializes i)
  exact ⟨first.2, second.2.trans (by rw [first.2])⟩

/-- When the loops behind `CONNECT` end, each has seen instances of a kind. -/
theorem Serves.uniform_of_endsAt {middle : Nat}
    (ends : gui.EndsAt request.polls
      ((loopsOf gui services instances).map fun keys => (keys, waitDeviceReadyTargets)) 0 middle) :
    ∀ keys ∈ loopsOf gui services instances, Uniform gui keys stateKey system := by
  intro keys isLoop
  rcases (exists_waitDone_of_endsAt ends).2 keys isLoop with ⟨poll, before, done⟩
  have notYet : ¬ TaskPublished gui request services instances poll := by
    rintro ⟨other, atMost, endsOther⟩
    have same := endsAt_unique ends endsOther
    omega
  rcases serves.connecting poll notYet with ⟨now, onTheWay, observes⟩
  exact uniform_of_waitDone isLoop serves.atRest serves.rests onTheWay observes done

/-- For instances of a kind in each loop, all loops end. -/
theorem Serves.runPublished
    (uniform : ∀ keys ∈ loopsOf gui services instances, Uniform gui keys stateKey system) :
    RunPublished gui request services instances := by
  rw [runPublished_iff_endsAt]
  rcases serves.connectHandled with ⟨start, connectHandled⟩
  rcases serves.initTaskHandled with ⟨startTask, initTaskHandled⟩
  -- if the loops behind `CONNECT` never ended, their tests would succeed from some poll on
  have first : ∃ middle, gui.EndsAt request.polls
      ((loopsOf gui services instances).map fun keys => (keys, waitDeviceReadyTargets))
      0 middle := by
    by_contra never
    apply never
    apply @exists_endsAt _ _ _ _ start
    intro keys isLoop time after
    have notYet : ¬ TaskPublished gui request services instances time := by
      rintro ⟨later, -, ends⟩
      exact never ⟨later, ends⟩
    exact waitDone_connect isLoop serves.rests (fun i => (serves.after i).1)
      (connectHandled time after notYet) (uniform keys isLoop)
  rcases first with ⟨middle, first⟩
  have second : ∃ later, gui.EndsAt request.polls
      ((loopsOf gui services instances).map fun keys => (keys, waitReadyTargets)) middle later := by
    apply @exists_endsAt _ _ _ _ (max startTask middle)
    intro keys isLoop time after
    have published : TaskPublished gui request services instances time :=
      ⟨middle, le_trans (Nat.le_max_right _ _) after, first⟩
    exact waitDone_initTask isLoop serves.rests (fun i => (serves.after i).2)
      (initTaskHandled time (le_trans (Nat.le_max_left _ _) after) published) (uniform keys isLoop)
  rcases second with ⟨later, second⟩
  exact ⟨middle, later, first, second⟩

/-- Both exit tests succeed for the instances when they have handled the command before, and
`RUN` is published, exactly when each wait loop polls instances of a kind. -/
theorem run_published_iff_uniform :
    (∀ keys ∈ loopsOf gui services instances,
        (∀ db, Observes gui db (loopsOf gui services instances) stateKey connected →
          gui.waitDone db keys waitDeviceReadyTargets = true) ∧
        ∀ db, Observes gui db (loopsOf gui services instances) stateKey initialized →
          gui.waitDone db keys waitReadyTargets = true) ∧
        RunPublished gui request services instances ↔
      ∀ keys ∈ loopsOf gui services instances, Uniform gui keys stateKey system := by
  constructor
  · rintro ⟨-, published⟩
    rcases runPublished_iff_endsAt.mp published with ⟨middle, -, ends, -⟩
    exact serves.uniform_of_endsAt ends
  · intro uniform
    refine ⟨fun keys isLoop => ⟨fun db observes => ?_, fun db observes => ?_⟩,
      serves.runPublished uniform⟩
    · exact waitDone_connect isLoop serves.rests (fun i => (serves.after i).1) observes
        (uniform keys isLoop)
    · exact waitDone_initTask isLoop serves.rests (fun i => (serves.after i).2) observes
        (uniform keys isLoop)

end Run

/-! ## Two instances -/

/-- An instance that rests in a state. -/
def restingSession (state : DeviceState) : Plugin.Session :=
  ⟨.commands [], ⟨state, [], [], 0, 0⟩, false⟩

/-- The instance after its first task is initialised. -/
def initializedSession : Plugin.Session :=
  ⟨.commands [], ⟨.ready, [], [], 1, 0⟩, false⟩

theorem restingSession_atRest {state : DeviceState} (rests : state.automatic = none) :
    AtRest (restingSession state) :=
  ⟨⟨Nat.le_refl _, ⟨rests, Or.inl rfl⟩⟩, rfl⟩

theorem handles_connect {state : DeviceState}
    (past : changeDeviceStateByMultiCommand state FairmqCommand.connect = []) :
    Handles FairmqCommand.connect (restingSession state) (restingSession state) := by
  refine ⟨[], nofun, ?_, rfl⟩
  simp [run, step, restingSession, past]

theorem handles_initTask :
    Handles FairmqCommand.initTask (restingSession .deviceReady) initializedSession :=
  ⟨[.readState, .request, .device .automatic, .device .push, .device .push, .waitForNext,
    .waitForNext], by decide, rfl, rfl⟩

theorem handles_initTask_ready :
    Handles FairmqCommand.initTask (restingSession .ready) (restingSession .ready) :=
  ⟨[], nofun, rfl, rfl⟩

/-- A controller of the two instances. -/
def pairGui : WebGui :=
  ⟨colon, [], fun _ => none, fun _ => []⟩

/-- The services of the two instances, and the instances. -/
def pairService (second : Bool) : Text :=
  (if second then "Sink" else "Sampler").toList

def pairName (second : Bool) : Text :=
  (if second then "Sink:Sink-0" else "Sampler:Sampler-0").toList

def pairStateKey (second : Bool) : Text :=
  Text.join [topPrefix, pairName second, fairMQStatePrefix] colon

/-- The sampler is in `DeviceReady` and the sink in `Ready`. -/
def mixedSystem (second : Bool) : Plugin.Session :=
  if second then restingSession .ready else restingSession .deviceReady

/-- Both have handled `INIT TASK`. -/
def mixedInitialized (second : Bool) : Plugin.Session :=
  if second then restingSession .ready else initializedSession

/-- The registry with the states of the two instances. -/
def pairDb (system : Bool → Plugin.Session) : Db :=
  Store.set (Store.set ∅ (pairStateKey false) (system false).device.state.name)
    (pairStateKey true) (system true).device.state.name

theorem observes_pair (loops : List (List Text)) (system : Bool → Plugin.Session) :
    Observes pairGui (pairDb system) loops pairStateKey system := by
  have differs : pairStateKey false ≠ pairStateKey true := by decide
  constructor
  · intro keys _ key member
    rcases List.mem_flatMap.mp member with ⟨selection, -, inScan⟩
    rcases AList.mem_insert _ |>.mp ((mem_scan _).mp inScan).1 with rfl | other
    · exact ⟨true, rfl⟩
    · rcases AList.mem_insert _ |>.mp other with rfl | none
      · exact ⟨false, rfl⟩
      · exact absurd none (AList.notMem_empty _)
  · intro second
    cases second
    · rw [pairDb, get_congr (lookup_set_of_ne _ differs _), get_set]
    · rw [pairDb, get_set]

theorem mixedSystem_atRest (i : Bool) : AtRest (mixedSystem i) := by
  cases i
  · exact restingSession_atRest rfl
  · exact restingSession_atRest rfl

theorem mixedSystem_rests (i : Bool) : Rests (mixedSystem i).device.state := by
  cases i
  · exact Or.inl (Or.inr (Or.inr (Or.inr rfl)))
  · exact Or.inr (Or.inl rfl)

theorem mixedSystem_connects (i : Bool) :
    Handles FairmqCommand.connect (mixedSystem i) (mixedSystem i) := by
  cases i
  · exact handles_connect rfl
  · exact handles_connect rfl

theorem mixedSystem_initializes (i : Bool) :
    Handles FairmqCommand.initTask (mixedSystem i) (mixedInitialized i) := by
  cases i
  · exact handles_initTask
  · exact handles_initTask_ready

/-- A `RUN` for services and instances, with the registries at its polls. -/
def runRequest (polls : Nat → Db) : Request :=
  ⟨[], ∅, polls, true⟩

/-- The instances are selected by name, and one wait loop polls both. With one instance ahead
of the other it does not end, and `RUN` is not published. -/
theorem run_not_published_of_mixed :
    ¬ ∀ (gui : WebGui) (request : Request) (services instances : PTree) (stateKey : Bool → Text)
      (system connected initialized : Bool → Plugin.Session),
      Serves gui request services instances stateKey system connected initialized →
        RunPublished gui request services instances := by
  intro publishes
  let services : PTree := .array [pairService false, pairService true]
  let instances : PTree := .array [pairName false, pairName true]
  let request := runRequest fun _ => pairDb mixedSystem
  have loops : loopsOf pairGui services instances = [[pairName false, pairName true]] := by
    decide +kernel
  have polled (i : Bool) : Polls pairGui [pairName false, pairName true] pairStateKey i := by
    refine ⟨pairName i, by cases i <;> simp, ?_⟩
    have plain : Glob.Plain (pairStateKey i) := by cases i <;> decide
    exact (Glob.stringmatch_plain plain _).mpr rfl
  have stuck : pairGui.waitDone (pairDb mixedSystem) [pairName false, pairName true]
      waitDeviceReadyTargets = false := by
    rw [Bool.eq_false_iff]
    intro done
    rcases ((observes_pair [[pairName false, pairName true]] mixedSystem).waitDone_iff
      (List.mem_singleton_self _) waitDeviceReadyTargets_ne_nil).mp done with ⟨target, -, shown⟩
    have same := (shown false (polled false)).trans (shown true (polled true)).symm
    exact absurd (DeviceState.name_injective same) (by decide)
  have never {later : Nat} : ¬ pairGui.EndsAt request.polls
      ((loopsOf pairGui services instances).map fun keys => (keys, waitDeviceReadyTargets))
      0 later := by
    rw [loops]
    rintro ⟨last, -, done, -⟩
    cases stuck.symm.trans done
  have serves : Serves pairGui request services instances pairStateKey mixedSystem mixedSystem
      mixedInitialized := by
    refine ⟨mixedSystem_atRest, mixedSystem_rests, mixedSystem_connects, mixedSystem_initializes,
      fun time _ => ⟨mixedSystem, fun i => Or.inl rfl, observes_pair _ _⟩,
      ⟨0, fun time _ _ => observes_pair _ _⟩, ⟨0, ?_⟩⟩
    rintro time - ⟨later, -, ends⟩
    exact absurd ends never
  rcases runPublished_iff_endsAt.mp (publishes _ _ _ _ _ _ _ _ serves) with ⟨_, _, ends, _⟩
  exact never ends

/-- For all instances of the two services there is a wait loop for each service, and `RUN` is
published. -/
theorem run_published_mixed :
    RunPublished pairGui
      (runRequest fun time => pairDb (if time < 2 then mixedSystem else mixedInitialized))
      (.array [pairService false, pairService true]) (.array [everyone]) := by
  let polls (time : Nat) : Db := pairDb (if time < 2 then mixedSystem else mixedInitialized)
  let services : PTree := .array [pairService false, pairService true]
  let pattern (i : Bool) : Text := Text.join [pairService i, ['*']] colon
  have loops : loopsOf pairGui services (.array [everyone]) =
      [[pattern false], [pattern true]] := by
    decide +kernel
  have polled {i j : Bool} (polls : Polls pairGui [pattern i] pairStateKey j) : j = i := by
    rcases polls with ⟨key, isKey, matched⟩
    cases List.mem_singleton.mp isKey
    revert matched
    revert i j
    decide +kernel
  have uniform : ∀ keys ∈ loopsOf pairGui services (.array [everyone]),
      Uniform pairGui keys pairStateKey mixedSystem := by
    rw [loops]
    intro keys isLoop
    simp only [List.mem_cons, List.not_mem_nil, or_false] at isLoop
    rcases isLoop with rfl | rfl
    · apply Or.inl
      intro i isPolled
      rw [polled isPolled]
      exact Or.inr (Or.inr (Or.inr rfl))
    · apply Or.inr ∘ Or.inl
      intro i isPolled
      rw [polled isPolled]
      rfl
  -- each loop ends at its first poll
  have ends : pairGui.EndsAt polls
      ((loopsOf pairGui services (.array [everyone])).map fun keys =>
        (keys, waitDeviceReadyTargets)) 0 2 := by
    have done (time : Nat) (early : time < 2) :
        ∀ keys ∈ loopsOf pairGui services (.array [everyone]),
          pairGui.waitDone (polls time) keys waitDeviceReadyTargets = true := by
      intro keys isLoop
      have isDb : polls time = pairDb mixedSystem := by
        simp only [polls, if_pos early]
      rw [isDb]
      exact waitDone_connect isLoop mixedSystem_rests
        (fun i => ((mixedSystem_atRest i).handles (mixedSystem_connects i)).2)
        (observes_pair _ _) (uniform keys isLoop)
    rw [loops] at done ⊢
    exact ⟨0, Nat.le_refl _, done 0 (by decide) _ (by simp), fun poll _ => by omega,
      1, Nat.le_refl _, done 1 (by decide) _ (by simp), fun poll _ _ => by omega, rfl⟩
  refine ((@run_published_iff_uniform Bool pairGui _ _ _ pairStateKey mixedSystem mixedSystem
    mixedInitialized ?_).mpr uniform).2
  refine ⟨mixedSystem_atRest, mixedSystem_rests, mixedSystem_connects, mixedSystem_initializes,
    fun time notYet => ⟨mixedSystem, fun i => Or.inl rfl, ?_⟩, ⟨0, fun time _ notYet => ?_⟩,
    ⟨2, fun time after _ => ?_⟩⟩
  · have early : time < 2 := Nat.lt_of_not_le fun later => notYet ⟨2, later, ends⟩
    simp only [runRequest, if_pos early]
    exact observes_pair _ _
  · have early : time < 2 := Nat.lt_of_not_le fun later => notYet ⟨2, later, ends⟩
    simp only [runRequest, if_pos early]
    exact observes_pair _ _
  · simp only [runRequest, if_neg (Nat.not_lt.mpr after)]
    exact observes_pair _ _

end NestDaq.Controller
