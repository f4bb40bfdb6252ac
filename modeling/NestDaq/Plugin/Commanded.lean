import NestDaq.Plugin.Cancel
import NestDaq.Plugin.Handled

/-!
# The state that the commands call for

The control thread follows commands step by step, while the device takes its own steps and
may finish a run at any moment. Where the device rests behind the last command depends on
the startup state and on the commands only, but for a run that has finished. The control
thread always gets behind the last command, within a number of steps known beforehand.
-/

namespace NestDaq.Plugin

open NestDaq.Transition

/-- The state in which `RunStartupSequence` leaves the device. -/
def startupTarget (fStartupState : Text) : DeviceState :=
  let s := Text.toLower fStartupState
  if s = "idle".toList then .idle
  else if s = "initialingdevice".toList ∨ s = "initializing-device".toList then
    .initializingDevice
  else if s = "initialized".toList then .initialized
  else if s = "bound".toList then .bound
  else if s = "deviceready".toList ∨ s = "device-ready".toList then .deviceReady
  else if s = "ready".toList then .ready
  else .running

/-- The command strings of a run, in their order. -/
def commandStrings : List Action → List Text
  | [] => []
  | .command cmd :: rest => cmd :: commandStrings rest
  | _ :: rest => commandStrings rest

/-- The state that the startup state and the commands behind it call for. -/
def commandedState (fStartupState : Text) (commands : List Text) : DeviceState :=
  commands.foldl DeviceState.afterMultiCommand (startupTarget fStartupState)

/-- The device is in the commanded state, or it has finished the run that it was to take. -/
def Obeys (commanded actual : DeviceState) : Prop :=
  actual = commanded ∨ commanded = .running ∧ actual = .ready

instance (commanded actual : DeviceState) : Decidable (Obeys commanded actual) :=
  inferInstanceAs (Decidable (_ ∨ _ ∧ _))

/-- `RUN` is the last single command. -/
def RunLast : List Text → Prop
  | [] => True
  | cmd :: rest => (cmd = FairmqCommand.run → rest = []) ∧ RunLast rest

/-- A device that runs is asked for nothing, or to stop before anything else. -/
def StopsFirst (state : DeviceState) (rest : List Text) : Prop :=
  state = .running → rest = [] ∨ rest.head? = some FairmqCommand.stop

/-- The single commands lead from the state to the commanded one. -/
structure Leads (commanded state : DeviceState) (rest : List Text) : Prop where
  obeys : Obeys commanded (rest.foldl DeviceState.afterSingleCommand state)
  stopsFirst : StopsFirst state rest
  runLast : RunLast rest

/-- What is left to do leads to the commanded state. -/
def Pursues (session : Session) (commanded : DeviceState) : Prop :=
  match session.control with
  | .commands rest => Leads commanded session.device.state rest
  | .requesting _ target rest => Leads commanded target rest
  | .waiting wait rest => Leads commanded wait.target rest

theorem Obeys.refl (state : DeviceState) : Obeys state state :=
  Or.inl rfl

theorem runLast_changeDeviceStateByMultiCommand (state : DeviceState) (cmd : Text) :
    RunLast (changeDeviceStateByMultiCommand state cmd) := by
  cases state <;> simp only [changeDeviceStateByMultiCommand] <;>
    (repeat' split) <;> simp only [RunLast] <;> decide

theorem runLast_runStartupSequence (fStartupState : Text) :
    RunLast (runStartupSequence fStartupState) := by
  simp only [runStartupSequence]
  (repeat' split) <;> simp only [RunLast] <;> decide

/-- A running device is stopped by every command that does anything to it. -/
theorem stopsFirst_changeDeviceStateByMultiCommand (state : DeviceState) (cmd : Text) :
    StopsFirst state (changeDeviceStateByMultiCommand state cmd) := by
  intro running
  rw [running]
  simp only [changeDeviceStateByMultiCommand]
  (repeat' split) <;> simp

/-- A command does the same to a device that runs and to one that has finished. -/
theorem Obeys.afterMultiCommand {commanded actual : DeviceState}
    (obeys : Obeys commanded actual) (cmd : Text) :
    Obeys (commanded.afterMultiCommand cmd) (actual.afterMultiCommand cmd) := by
  rcases obeys with rfl | ⟨rfl, rfl⟩
  · exact Obeys.refl _
  · by_cases known : cmd ∈ [FairmqCommand.run, DaqCommand.start, FairmqCommand.stop,
        FairmqCommand.resetTask, FairmqCommand.resetDevice, DaqCommand.reset]
    · simp only [List.mem_cons, List.not_mem_nil, or_false] at known
      rcases known with rfl | rfl | rfl | rfl | rfl | rfl <;> decide
    · -- neither device does anything
      simp only [List.mem_cons, List.not_mem_nil, or_false, not_or] at known
      simp only [DeviceState.afterMultiCommand, changeDeviceStateByMultiCommand, known, or_self,
        if_false]
      decide

/-- The single commands of a command lead to the state after it. -/
theorem Obeys.leads {commanded actual : DeviceState} (obeys : Obeys commanded actual)
    (cmd : Text) :
    Leads (commanded.afterMultiCommand cmd) actual (changeDeviceStateByMultiCommand actual cmd) :=
  ⟨obeys.afterMultiCommand cmd, stopsFirst_changeDeviceStateByMultiCommand _ _,
    runLast_changeDeviceStateByMultiCommand _ _⟩

/-- The startup sequence leads to its state. -/
theorem leads_runStartupSequence (fStartupState : Text) :
    Leads (startupTarget fStartupState) .idle (runStartupSequence fStartupState) := by
  constructor
  · simp only [startupTarget, runStartupSequence]
    (repeat' split) <;> decide
  · intro running
    cases running
  · exact runLast_runStartupSequence fStartupState

/-! ## What one step keeps -/

variable {session later last : Session} {commanded : DeviceState}

/-- Only `RUN` makes a device run. -/
theorem eq_run_of_request {state : DeviceState} {cmd : Text} {transition : DeviceStateTransition}
    (asks : (changeDeviceStateBySingleCommand state cmd).request = some (transition, .running)) :
    cmd = FairmqCommand.run := by
  cases state <;> simp only [changeDeviceStateBySingleCommand] at asks <;>
    (repeat' split at asks) <;> first | assumption | cases asks

/-- The next single command leads on, whether it asks for a transition or not. -/
theorem Leads.next {state : DeviceState} {cmd : Text} {rest : List Text}
    (leads : Leads commanded state (cmd :: rest)) :
    match (changeDeviceStateBySingleCommand state cmd).request with
    | none => Leads commanded state rest
    | some (_, target) => Leads commanded target rest := by
  have obeys := leads.obeys
  rw [List.foldl_cons, DeviceState.afterSingleCommand] at obeys
  cases asks : (changeDeviceStateBySingleCommand state cmd).request with
  | none =>
      rw [asks] at obeys
      refine ⟨obeys, ?_, leads.runLast.2⟩
      -- a running device would be asked to stop
      intro running
      rcases leads.stopsFirst running with isEmpty | stop
      · cases isEmpty
      · rw [running, Option.some.inj stop] at asks
        cases asks
  | some request =>
      rcases request with ⟨transition, target⟩
      rw [asks] at obeys
      refine ⟨obeys, ?_, leads.runLast.2⟩
      intro running
      rw [running] at asks
      exact Or.inl (leads.runLast.1 (eq_run_of_request asks))

/-- A run that finishes leads on to the same state. -/
theorem Leads.finish {rest : List Text} (leads : Leads commanded .running rest) :
    Leads commanded .ready rest := by
  have obeys := leads.obeys
  refine ⟨?_, fun running => DeviceState.noConfusion running, leads.runLast⟩
  rcases leads.stopsFirst rfl with rfl | stop
  · rcases obeys with isRunning | finished
    · exact Or.inr ⟨isRunning.symm, rfl⟩
    · cases finished.2
  · cases rest with
    | nil => cases stop
    | cons cmd others =>
        rw [List.head?_cons, Option.some.injEq] at stop
        subst stop
        exact obeys

/-- A device that waits for its target ends in it, or has finished the run already. -/
theorem Awaiting.state_of_resting {device next : Device} {wait : Wait}
    (awaiting : Awaiting device wait) (resting : Resting next)
    (same : next.state = device.state) :
    next.state = wait.target ∨ wait.target = .running ∧ next.state = .ready := by
  rcases awaiting.ahead with ⟨before, behind, _, _, place⟩
  rcases place with ⟨_, settled⟩ | ⟨running, ready, _⟩
  · rw [← same, DeviceState.settled_of_automatic_eq_none resting.rests] at settled
    exact Or.inl settled
  · exact Or.inr ⟨running, same.trans ready⟩

/-- A step that reads no command keeps the commanded state in sight. -/
theorem Pursues.step {action : Action} (pursues : Pursues session commanded)
    (invariant : Invariant session) (notCommand : ∀ cmd, action ≠ .command cmd)
    (stepped : Plugin.step session action = some later) : Pursues later commanded := by
  have next := invariant.step stepped
  cases action with
  | command cmd => exact absurd rfl (notCommand cmd)
  | readState =>
      simp only [Plugin.step] at stepped
      split at stepped
      · rename_i cmd rest isControl
        cases stepped
        rw [Pursues, isControl] at pursues
        have leads := Leads.next pursues
        cases asks : (changeDeviceStateBySingleCommand session.device.state cmd).request with
        | none =>
            rw [asks] at leads
            simpa only [Pursues, asks] using leads
        | some request =>
            rw [asks] at leads
            simpa only [Pursues, asks] using leads
      · cases stepped
  | request =>
      simp only [Plugin.step] at stepped
      split at stepped
      · rename_i transition target rest isControl
        cases stepped
        rw [Pursues, isControl] at pursues
        exact pursues
      · cases stepped
  | waitForNext =>
      simp only [Plugin.step] at stepped
      split at stepped
      · rename_i wait rest entry entries isControl queue
        cases stepped
        rw [Pursues, isControl] at pursues
        by_cases isTarget : entry.state = wait.target
        · simp only [isTarget, if_true] at next
          have rests : Resting session.device.dropNext := next.resting rfl
          simp only [Pursues, isTarget, if_true]
          rcases (invariant.awaiting isControl).state_of_resting rests rfl with inTarget | finished
          · rw [inTarget]
            exact pursues
          · have leads : Leads commanded wait.target rest := pursues
            rw [finished.1] at leads
            rw [finished.2]
            exact leads.finish
        · simpa only [Pursues, isTarget, if_false] using pursues
      · cases stepped
  | device action =>
      rcases Option.map_eq_some_iff.mp stepped with ⟨device, moved, rfl⟩
      cases isControl : session.control with
      | requesting transition target rest => simpa only [Pursues, isControl] using pursues
      | waiting wait rest => simpa only [Pursues, isControl] using pursues
      | commands rest =>
          simp only [Pursues, isControl] at pursues ⊢
          have rests := (invariant.resting isControl).rests
          rcases Device.deviceStep_cases moved with
            ⟨state, steps, rfl⟩ | ⟨running, rfl⟩ | ⟨oldest, others, _, rfl⟩
          · rw [rests] at steps
            cases steps
          · rw [running] at pursues
            exact pursues.finish
          · exact pursues

/-- Reading a command replaces the commanded state by the one after the command. -/
theorem Pursues.command {cmd : Text} (pursues : Pursues session commanded)
    (stepped : Plugin.step session (.command cmd) = some later) :
    Pursues later (commanded.afterMultiCommand cmd) := by
  simp only [Plugin.step] at stepped
  split at stepped
  · rename_i isControl
    cases stepped
    rw [Pursues, isControl] at pursues
    exact Obeys.leads pursues.obeys cmd
  · cases stepped

/-- In every run the control thread pursues the state after the commands so far. -/
theorem Pursues.run {actions : List Action} (pursues : Pursues session commanded)
    (invariant : Invariant session)
    (reached : Transition.run Plugin.step session actions = some last) :
    Invariant last ∧
      Pursues last ((commandStrings actions).foldl DeviceState.afterMultiCommand commanded) := by
  induction actions generalizing session commanded with
  | nil =>
      cases reached
      exact ⟨invariant, pursues⟩
  | cons action rest inductionHypothesis =>
      rcases (run_cons_eq_some_iff _ _ _ _ _).mp reached with ⟨next, stepped, ran⟩
      have kept := invariant.step stepped
      cases action with
      | command cmd => exact inductionHypothesis (pursues.command stepped) kept ran
      | readState =>
          exact inductionHypothesis (pursues.step invariant (fun _ same => by cases same) stepped)
            kept ran
      | request =>
          exact inductionHypothesis (pursues.step invariant (fun _ same => by cases same) stepped)
            kept ran
      | waitForNext =>
          exact inductionHypothesis (pursues.step invariant (fun _ same => by cases same) stepped)
            kept ran
      | device action =>
          exact inductionHypothesis (pursues.step invariant (fun _ same => by cases same) stepped)
            kept ran

/-- The plugin has just been started, with a startup state. -/
structure Starting (fStartupState : Text) (session : Session) : Prop where
  initial : Initial session
  control : session.control = .commands (runStartupSequence fStartupState)

theorem Starting.pursues {fStartupState : Text} (starting : Starting fStartupState session) :
    Pursues session (startupTarget fStartupState) := by
  rw [Pursues, starting.control, starting.initial.idle]
  exact leads_runStartupSequence fStartupState

/-- Whenever the control thread waits for a command, the device rests in the state that the
startup state and the commands so far call for, or it has finished the run they call for;
nothing else of the order of the steps matters. -/
theorem rests_as_commanded {fStartupState : Text} (starting : Starting fStartupState session)
    {actions : List Action} (reached : run step session actions = some last)
    (waits : last.control = .commands []) :
    Resting last.device ∧
      Obeys (commandedState fStartupState (commandStrings actions)) last.device.state := by
  rcases starting.pursues.run starting.initial.invariant reached with ⟨invariant, pursues⟩
  rw [Pursues, waits] at pursues
  exact ⟨invariant.resting waits, pursues.obeys⟩

/-- A device starts and is to be initialized. -/
def initializedAtStart : Session where
  control := .commands (runStartupSequence "Initialized".toList)
  device := ⟨.idle, [], [], 0, 0⟩
  fResetDeviceRequested := false

/-- It is told to start a run, and the run finishes by itself. -/
def finishedRun : List Action :=
  let direct := [.readState, .request, .device .push, .waitForNext]
  let stepOver := [.readState, .request, .device .push, .device .automatic, .device .push,
    .waitForNext, .waitForNext]
  direct ++ direct ++ .command DaqCommand.start :: stepOver ++ stepOver ++ stepOver ++ direct ++
    [.device .finish]

/-- It rests in `Ready` then, although the commands call for `Running`. -/
theorem rests_as_commanded_finishedRun :
    let last : Session := ⟨.commands [], ⟨.ready, [.ready], [], 6, 6⟩, false⟩
    run step initializedAtStart finishedRun = some last ∧
      commandedState "Initialized".toList (commandStrings finishedRun) = .running ∧
      Resting last.device ∧
      Obeys (commandedState "Initialized".toList (commandStrings finishedRun))
        last.device.state :=
  ⟨by decide, by decide, @rests_as_commanded initializedAtStart
    ⟨.commands [], ⟨.ready, [.ready], [], 6, 6⟩, false⟩ "Initialized".toList
    ⟨⟨⟨_, rfl⟩, rfl, Or.inl rfl, rfl⟩, rfl⟩ finishedRun (by decide) rfl⟩

/-! ## Every command ends -/

namespace Session

/-- A bound on the steps until the control thread waits for a command. -/
def stepsToRest (session : Session) : Nat :=
  session.device.remaining +
    match session.control with
    | .commands rest => 8 * rest.length
    | .requesting _ _ rest => 8 * rest.length + 7
    | .waiting _ rest => 8 * rest.length

end Session

/-- A request adds the state that is entered and what follows from it. -/
theorem Device.remaining_changeDeviceState (device : Device)
    (transition : DeviceStateTransition) :
    (device.changeDeviceState transition).remaining ≤ device.remaining + 5 := by
  cases accepted : device.state.after transition with
  | none =>
      rw [Device.changeDeviceState_of_refused accepted]
      exact Nat.le_add_right _ _
  | some state =>
      have atMost : state.stepsLeft ≤ 3 := by
        rw [DeviceState.stepsLeft]
        split
        · exact Nat.le_refl 3
        · exact Nat.zero_le 3
      simp only [Device.remaining, Device.changeDeviceState, accepted, Device.enter,
        List.length_append, List.length_singleton]
      omega

/-- Every step but the reading of a command uses up the bound. -/
theorem stepsToRest_step {action : Action} (notCommand : ∀ cmd, action ≠ .command cmd)
    (stepped : step session action = some later) :
    later.stepsToRest < session.stepsToRest := by
  cases action with
  | command cmd => exact absurd rfl (notCommand cmd)
  | readState =>
      simp only [Plugin.step] at stepped
      split at stepped
      · rename_i cmd rest isControl
        cases stepped
        simp only [Session.stepsToRest, isControl, List.length_cons]
        cases (changeDeviceStateBySingleCommand session.device.state cmd).request with
        | none =>
            apply Nat.add_lt_add_left
            simp only
            omega
        | some request =>
            apply Nat.add_lt_add_left
            simp only
            omega
      · cases stepped
  | request =>
      simp only [Plugin.step] at stepped
      split at stepped
      · rename_i transition target rest isControl
        cases stepped
        have atMost := session.device.remaining_changeDeviceState transition
        simp only [Session.stepsToRest, isControl]
        omega
      · cases stepped
  | waitForNext =>
      simp only [Plugin.step] at stepped
      split at stepped
      · rename_i wait rest entry entries isControl queue
        cases stepped
        have fewer : session.device.dropNext.remaining < session.device.remaining := by
          simp [Device.remaining, Device.dropNext, queue]
        simp only [Session.stepsToRest, isControl]
        split
        · rename_i equal
          split at equal
          · cases equal
            exact Nat.add_lt_add_right fewer _
          · cases equal
        · rename_i equal
          split at equal <;> cases equal
        · rename_i equal
          split at equal
          · cases equal
          · cases equal
            exact Nat.add_lt_add_right fewer _
      · cases stepped
  | device action =>
      rcases Option.map_eq_some_iff.mp stepped with ⟨device, moved, rfl⟩
      exact Nat.add_lt_add_right (Device.remaining_deviceStep moved) _

/-- The control thread or the device can take a step without another command. -/
def GoesOn (session : Session) : Prop :=
  ∃ action, commandStrings [action] = [] ∧ (step session action).isSome

/-- Where the device has something to push or a state to leave, it can do so. -/
theorem Device.exists_deviceStep {device : Device} (comes : device.upcoming ≠ [])
    (queue : device.fStateQueue = []) : ∃ action, (deviceStep device action).isSome := by
  cases isEntered : device.entered with
  | cons oldest rest =>
      exists .push
      simp only [deviceStep, isEntered, Option.isSome_some]
  | nil =>
      exists .automatic
      simp only [upcoming, unread, queue, isEntered, List.map_nil, List.append_nil, List.nil_append,
        ne_eq, Option.toList_eq_nil_iff] at comes
      rw [deviceStep, Option.isSome_map]
      exact Option.isSome_iff_ne_none.mpr comes

/-- Unless the control thread waits for a command, there is a step to be taken. -/
theorem Invariant.goesOn (invariant : Invariant session)
    (busy : session.control ≠ .commands []) : GoesOn session := by
  cases isControl : session.control with
  | commands rest =>
      cases rest with
      | nil => exact absurd isControl busy
      | cons cmd rest =>
          exact ⟨.readState, rfl, by simp only [Plugin.step, isControl, Option.isSome_some]⟩
  | requesting transition target rest =>
      exact ⟨.request, rfl, by simp only [Plugin.step, isControl, Option.isSome_some]⟩
  | waiting wait rest =>
      cases queue : session.device.fStateQueue with
      | cons entry entries =>
          exact ⟨.waitForNext, rfl,
            by simp only [Plugin.step, isControl, queue, Option.isSome_some]⟩
      | nil =>
          have comes := List.ne_nil_of_mem (invariant.sound.comes wait rest isControl)
          rcases Device.exists_deviceStep comes queue with ⟨action, moves⟩
          exact ⟨.device action, rfl, by rwa [Plugin.step, Option.isSome_map]⟩

/-- A run that reads no command is no longer than the bound. -/
theorem length_le_stepsToRest {actions : List Action}
    (reached : run step session actions = some last) (free : commandStrings actions = []) :
    actions.length ≤ session.stepsToRest := by
  induction actions generalizing session with
  | nil => exact Nat.zero_le _
  | cons action rest inductionHypothesis =>
      rcases (run_cons_eq_some_iff _ _ _ _ _).mp reached with ⟨next, stepped, ran⟩
      have notCommand : ∀ cmd, action ≠ .command cmd := by
        rintro cmd rfl
        cases free
      have others : commandStrings rest = [] := by
        cases action with
        | command cmd => exact absurd rfl (notCommand cmd)
        | readState => exact free
        | request => exact free
        | waitForNext => exact free
        | device action => exact free
      have fewer := stepsToRest_step notCommand stepped
      exact Nat.lt_of_le_of_lt (inductionHypothesis ran others) fewer

/-- Between two commands there are at most so many steps, whoever takes them; and as long as
the control thread does not wait for a command, there is a step to be taken. So it always
gets behind the last single command, as long as the callbacks of the device return: here
none of them waits for a peer. -/
theorem commands_end {fStartupState : Text} (starting : Starting fStartupState session)
    {actions : List Action} (reached : run step session actions = some last)
    {more : List Action} {final : Session} (ran : run step last more = some final)
    (free : commandStrings more = []) :
    more.length ≤ last.stepsToRest ∧ (final.control ≠ .commands [] → GoesOn final) := by
  have invariant : Invariant last :=
    run_invariant (fun kept _ stepped => Invariant.step kept stepped) starting.initial.invariant
      (meets_of_forall (fun _ _ => True.intro) session actions) reached
  constructor
  · exact length_le_stepsToRest ran free
  · exact (run_invariant (fun kept _ stepped => Invariant.step kept stepped) invariant
      (meets_of_forall (fun _ _ => True.intro) last more) ran).goesOn

/-- The control thread waits for `Bound` and can go on. -/
theorem commands_end_waiting :
    let rest := [FairmqCommand.connect, FairmqCommand.initTask, FairmqCommand.run]
    let last : Session :=
      ⟨.commands (FairmqCommand.bind :: rest), ⟨.initialized, [], [], 2, 0⟩, false⟩
    let final : Session :=
      ⟨.waiting ⟨.bind, .bound, 3, true⟩ rest, ⟨.binding, [.binding], [], 3, 0⟩, false⟩
    run step initializedAtStart (finishedRun.take 9) = some last ∧
      run step last [.readState, .request] = some final ∧ last.stepsToRest = 32 ∧
      2 ≤ last.stepsToRest ∧ GoesOn final :=
  have holds := @commands_end initializedAtStart
    ⟨.commands [FairmqCommand.bind, FairmqCommand.connect, FairmqCommand.initTask,
      FairmqCommand.run], ⟨.initialized, [], [], 2, 0⟩, false⟩ "Initialized".toList
    ⟨⟨⟨_, rfl⟩, rfl, Or.inl rfl, rfl⟩, rfl⟩ (finishedRun.take 9) (by decide)
    [.readState, .request]
    ⟨.waiting ⟨.bind, .bound, 3, true⟩ [FairmqCommand.connect, FairmqCommand.initTask,
      FairmqCommand.run], ⟨.binding, [.binding], [], 3, 0⟩, false⟩ rfl rfl
  ⟨by decide, rfl, by decide, holds.1, holds.2 (by decide)⟩

end NestDaq.Plugin
