import NestDaq.Plugin.Waiting

/-!
# Commands that are completely handled

A command is handled when the control thread has run all its single commands. The device
then rests in a state that depends only on the command and on the state in which it
rested before, whatever the order of the steps was.
-/

namespace NestDaq.Plugin

open NestDaq.Transition

namespace DeviceState

/-- The state that the branch of a single command waits for. -/
def afterSingleCommand (state : DeviceState) (cmd : Text) : DeviceState :=
  match (changeDeviceStateBySingleCommand state cmd).request with
  | none => state
  | some (_, target) => target

/-- The state after the single commands of a command. -/
def afterMultiCommand (state : DeviceState) (cmd : Text) : DeviceState :=
  (changeDeviceStateByMultiCommand state cmd).foldl afterSingleCommand state

theorem name_injective : Function.Injective name := by
  intro first second
  cases first <;> cases second <;> decide

end DeviceState

/-- The control thread waits for a command, and the device rests. -/
structure AtRest (session : Session) : Prop where
  invariant : Invariant session
  control : session.control = .commands []

/-- The step neither reads another command nor finishes a run. -/
def Calm (action : Action) : Prop :=
  (∀ cmd, action ≠ .command cmd) ∧ action ≠ .device .finish

instance decidableCalm : DecidablePred Calm
  | .command cmd => .isFalse fun calm => calm.1 cmd rfl
  | .device .finish => .isFalse fun calm => calm.2 rfl
  | .device .automatic => .isTrue ⟨nofun, nofun⟩
  | .device .push => .isTrue ⟨nofun, nofun⟩
  | .readState => .isTrue ⟨nofun, nofun⟩
  | .request => .isTrue ⟨nofun, nofun⟩
  | .waitForNext => .isTrue ⟨nofun, nofun⟩

/-- Some order of steps handles the command completely. -/
def Handles (cmd : Text) (session later : Session) : Prop :=
  ∃ actions, (∀ action ∈ actions, Calm action) ∧
    run step session (.command cmd :: actions) = some later ∧ later.control = .commands []

/-- The single commands still to run, and the wait loop before them, end in the state. -/
def Heads (session : Session) (state : DeviceState) : Prop :=
  match session.control with
  | .commands rest => rest.foldl DeviceState.afterSingleCommand session.device.state = state
  | .requesting transition target rest =>
      Allows session.device.state transition target ∧
        rest.foldl DeviceState.afterSingleCommand target = state
  | .waiting wait rest =>
      session.device.state.settled = wait.target ∧
        rest.foldl DeviceState.afterSingleCommand wait.target = state

variable {session later : Session} {state : DeviceState}

/-- The device thread steps towards the state in which it settles. -/
theorem Device.settled_deviceStep {device next : Device} {action : DeviceAction}
    (notFinish : action ≠ .finish) (stepped : deviceStep device action = some next) :
    next.state.settled = device.state.settled := by
  cases action with
  | automatic =>
      rcases Option.map_eq_some_iff.mp stepped with ⟨last, steps, rfl⟩
      rw [DeviceState.settled_of_automatic steps]
      exact DeviceState.settled_of_automatic_eq_none (DeviceState.automatic_of_automatic steps)
  | finish => exact absurd rfl notFinish
  | push =>
      simp only [deviceStep] at stepped
      split at stepped
      · cases stepped
      · cases stepped
        rfl

/-- A step on the way leads on to the same state. -/
theorem Heads.step {action : Action} (heads : Heads session state) (invariant : Invariant session)
    (calm : Calm action) (stepped : step session action = some later) : Heads later state := by
  have next := invariant.step stepped
  cases action with
  | command cmd => exact absurd rfl (calm.1 cmd)
  | readState =>
      simp only [Plugin.step] at stepped
      split at stepped
      · rename_i cmd rest isControl
        cases stepped
        simp only [Heads, isControl, List.foldl_cons, DeviceState.afterSingleCommand] at heads
        cases asks : (changeDeviceStateBySingleCommand session.device.state cmd).request with
        | none => simpa only [Heads, asks] using heads
        | some request =>
            simp only [asks] at heads
            exact ⟨allows_of_request asks, heads⟩
      · cases stepped
  | request =>
      simp only [Plugin.step] at stepped
      split at stepped
      · rename_i transition target rest isControl
        cases stepped
        rw [Heads, isControl] at heads
        rcases heads.1 with ⟨entered, accepted, settled⟩
        have isEntered := (Device.changeDeviceState_of_after accepted).1
        exact ⟨(congrArg DeviceState.settled isEntered).trans settled, heads.2⟩
      · cases stepped
  | waitForNext =>
      simp only [Plugin.step] at stepped
      split at stepped
      · rename_i wait rest entry entries isControl queue
        cases stepped
        rw [Heads, isControl] at heads
        by_cases isTarget : entry.state = wait.target
        · -- the wait loop ends, and the device rests in the target
          simp only [isTarget, if_true] at next
          have rests : session.device.state.automatic = none := (next.resting rfl).rests
          rw [DeviceState.settled_of_automatic_eq_none rests] at heads
          simp only [Heads, isTarget, if_true]
          exact (congrArg (rest.foldl DeviceState.afterSingleCommand) heads.1).trans heads.2
        · simp only [Heads, isTarget, if_false]
          exact heads
      · cases stepped
  | device action =>
      rcases Option.map_eq_some_iff.mp stepped with ⟨device, moved, rfl⟩
      have notFinish : action ≠ .finish := fun finish => calm.2 (congrArg Action.device finish)
      have settled := Device.settled_deviceStep notFinish moved
      -- a device at rest stays in its state
      have stays (before : session.device.state.automatic = none)
          (after : device.state.automatic = none) : device.state = session.device.state := by
        rwa [DeviceState.settled_of_automatic_eq_none before,
          DeviceState.settled_of_automatic_eq_none after] at settled
      cases isControl : session.control with
      | commands rest =>
          have same := stays (invariant.resting isControl).rests (next.resting isControl).rests
          simpa only [Heads, isControl, same] using heads
      | requesting transition target rest =>
          have same := stays (invariant.requesting isControl).rests
            (next.requesting isControl).rests
          simpa only [Heads, isControl, same] using heads
      | waiting wait rest => simpa only [Heads, isControl, settled] using heads

/-- The step that reads a command leads to the state after its single commands. -/
theorem AtRest.heads {cmd : Text} (atRest : AtRest session)
    (stepped : step session (.command cmd) = some later) :
    Invariant later ∧ Heads later (session.device.state.afterMultiCommand cmd) := by
  have invariant := atRest.invariant.step stepped
  simp only [Plugin.step, atRest.control] at stepped
  cases stepped
  exact ⟨invariant, rfl⟩

/-- A device that has handled a command rests in the state after it. -/
theorem AtRest.handles {cmd : Text} (atRest : AtRest session)
    (handles : Handles cmd session later) :
    AtRest later ∧ later.device.state = session.device.state.afterMultiCommand cmd := by
  rcases handles with ⟨actions, calm, reached, control⟩
  rcases (run_cons_eq_some_iff _ _ _ _ _).mp reached with ⟨first, stepped, ran⟩
  have preserved {before after : Session} {action : Action}
      (both : Invariant before ∧ Heads before (session.device.state.afterMultiCommand cmd))
      (calmly : Calm action) (taken : step before action = some after) :
      Invariant after ∧ Heads after (session.device.state.afterMultiCommand cmd) :=
    ⟨both.1.step taken, both.2.step both.1 calmly taken⟩
  have holds := @run_invariant _ _ step (fun _ action => Calm action)
    (fun other => Invariant other ∧ Heads other (session.device.state.afterMultiCommand cmd))
    preserved _ _ _ (atRest.heads stepped) (meets_of_forall_mem (fun _ => calm) first) ran
  rcases holds with ⟨invariant, heads⟩
  rw [Heads, control] at heads
  exact ⟨⟨invariant, control⟩, heads⟩

/-- The instance has not read the command yet, or is at some step of handling it. -/
def OnTheWay (cmd : Text) (session now : Session) : Prop :=
  now = session ∨
    ∃ actions, (∀ action ∈ actions, Calm action) ∧
      run step session (.command cmd :: actions) = some now

/-- A device at rest stays in its state until a command is read. -/
theorem AtRest.calm {action : Action} (atRest : AtRest session) (calm : Calm action)
    (stepped : step session action = some later) :
    AtRest later ∧ later.device.state = session.device.state := by
  have next := atRest.invariant.step stepped
  cases action with
  | command cmd => exact absurd rfl (calm.1 cmd)
  | readState => simp [Plugin.step, atRest.control] at stepped
  | request => simp [Plugin.step, atRest.control] at stepped
  | waitForNext => simp [Plugin.step, atRest.control] at stepped
  | device action =>
      rcases Option.map_eq_some_iff.mp stepped with ⟨device, moved, rfl⟩
      have notFinish : action ≠ .finish := fun finish => calm.2 (congrArg Action.device finish)
      have settled := Device.settled_deviceStep notFinish moved
      rw [DeviceState.settled_of_automatic_eq_none (atRest.invariant.resting atRest.control).rests,
        DeviceState.settled_of_automatic_eq_none (next.resting atRest.control).rests] at settled
      exact ⟨⟨next, atRest.control⟩, settled⟩

/-- A command that stands for no single command changes no state. -/
theorem AtRest.state_onTheWay {cmd : Text} {now : Session} (atRest : AtRest session)
    (onTheWay : OnTheWay cmd session now)
    (nothing : changeDeviceStateByMultiCommand session.device.state cmd = []) :
    now.device.state = session.device.state := by
  rcases onTheWay with rfl | ⟨actions, calm, reached⟩
  · rfl
  · rcases (run_cons_eq_some_iff _ _ _ _ _).mp reached with ⟨first, stepped, ran⟩
    have invariant := atRest.invariant.step stepped
    simp only [Plugin.step, atRest.control, nothing] at stepped
    cases stepped
    have start : AtRest { session with control := .commands [] } := ⟨invariant, rfl⟩
    exact (@run_invariant _ _ step (fun _ action => Calm action)
      (fun other => AtRest other ∧ other.device.state = session.device.state)
      (fun holds calmly taken =>
        ⟨(holds.1.calm calmly taken).1, (holds.1.calm calmly taken).2.trans holds.2⟩)
      _ _ _ ⟨start, rfl⟩ (meets_of_forall_mem (fun _ => calm) _) ran).2

/-- The single commands on the way from `Idle` to `DeviceReady`. -/
def connectCommands : List Text :=
  [FairmqCommand.initDevice, FairmqCommand.completeInit, FairmqCommand.bind, FairmqCommand.connect]

/-- The transitions that they request. -/
def connectTransitions : List DeviceStateTransition :=
  [.initDevice, .completeInit, .bind, .connect]

/-- The states up to `DeviceReady`. -/
def earlyStates : List DeviceState :=
  [.idle, .initializingDevice, .initialized, .binding, .bound, .connecting, .deviceReady]

/-- The device is on its way to `DeviceReady`, and no other command is to be run. -/
structure Early (session : Session) : Prop where
  state : session.device.state ∈ earlyStates
  control : match session.control with
    | .commands rest => ∀ cmd ∈ rest, cmd ∈ connectCommands
    | .requesting transition _ rest =>
        transition ∈ connectTransitions ∧ ∀ cmd ∈ rest, cmd ∈ connectCommands
    | .waiting _ rest => ∀ cmd ∈ rest, cmd ∈ connectCommands

theorem Early.ne_ready (early : Early session) : session.device.state ≠ .ready := by
  intro ready
  exact absurd (ready ▸ early.state) (by decide)

theorem Early.ne_running (early : Early session) : session.device.state ≠ .running := by
  intro running
  exact absurd (running ▸ early.state) (by decide)

/-- A command on the way requests a transition on the way. -/
theorem transition_of_connectCommands {state : DeviceState} {cmd : Text}
    {transition : DeviceStateTransition} {target : DeviceState} (isEarly : state ∈ earlyStates)
    (onTheWay : cmd ∈ connectCommands)
    (asks : (changeDeviceStateBySingleCommand state cmd).request = some (transition, target)) :
    transition ∈ connectTransitions := by
  have all : ∀ state ∈ earlyStates, ∀ cmd ∈ connectCommands,
      ∀ request ∈ (changeDeviceStateBySingleCommand state cmd).request,
        request.1 ∈ connectTransitions := by
    decide
  exact all state isEarly cmd onTheWay (transition, target) asks

/-- Such a transition does not lead further than `DeviceReady`. -/
theorem after_mem_earlyStates {state next : DeviceState} {transition : DeviceStateTransition}
    (isEarly : state ∈ earlyStates) (onTheWay : transition ∈ connectTransitions)
    (accepted : state.after transition = some next) : next ∈ earlyStates := by
  simp only [earlyStates, connectTransitions, List.mem_cons, List.not_mem_nil, or_false]
    at isEarly onTheWay
  rcases isEarly with rfl | rfl | rfl | rfl | rfl | rfl | rfl <;>
    rcases onTheWay with rfl | rfl | rfl | rfl <;> cases accepted <;> decide

theorem automatic_mem_earlyStates {state next : DeviceState} (isEarly : state ∈ earlyStates)
    (steps : state.automatic = some next) : next ∈ earlyStates := by
  simp only [earlyStates, List.mem_cons, List.not_mem_nil, or_false] at isEarly
  rcases isEarly with rfl | rfl | rfl | rfl | rfl | rfl | rfl <;> cases steps <;> decide

/-- A step on the way keeps the device on the way. -/
theorem Early.step {action : Action} (early : Early session) (calm : Calm action)
    (stepped : step session action = some later) : Early later := by
  have control := early.control
  cases action with
  | command cmd => exact absurd rfl (calm.1 cmd)
  | readState =>
      simp only [Plugin.step] at stepped
      split at stepped
      · rename_i cmd rest isControl
        cases stepped
        rw [isControl] at control
        have others : ∀ other ∈ rest, other ∈ connectCommands :=
          fun other member => control other (List.mem_cons_of_mem _ member)
        refine ⟨early.state, ?_⟩
        cases asks : (changeDeviceStateBySingleCommand session.device.state cmd).request with
        | none => simpa only [asks] using others
        | some request =>
            exact ⟨transition_of_connectCommands early.state (control cmd List.mem_cons_self) asks,
              others⟩
      · cases stepped
  | request =>
      simp only [Plugin.step] at stepped
      split at stepped
      · rename_i transition target rest isControl
        cases stepped
        rw [isControl] at control
        refine ⟨?_, control.2⟩
        cases accepted : session.device.state.after transition with
        | none =>
            rw [Device.changeDeviceState_of_refused accepted]
            exact early.state
        | some next =>
            rw [(Device.changeDeviceState_of_after accepted).1]
            exact after_mem_earlyStates early.state control.1 accepted
      · cases stepped
  | waitForNext =>
      simp only [Plugin.step] at stepped
      split at stepped
      · rename_i wait rest entry entries isControl queue
        cases stepped
        rw [isControl] at control
        refine ⟨early.state, ?_⟩
        by_cases isTarget : entry.state = wait.target
        · simpa only [isTarget, if_true] using control
        · simpa only [isTarget, if_false] using control
      · cases stepped
  | device action =>
      rcases Option.map_eq_some_iff.mp stepped with ⟨device, moved, rfl⟩
      refine ⟨?_, control⟩
      rcases Device.deviceStep_cases moved with
        ⟨state, steps, rfl⟩ | ⟨running, rfl⟩ | ⟨oldest, others, _, rfl⟩
      · exact automatic_mem_earlyStates early.state steps
      · exact absurd running early.ne_running
      · exact early.state

/-- A command on the way keeps a device on the way. -/
theorem AtRest.early_onTheWay {cmd : Text} {now : Session} (atRest : AtRest session)
    (onTheWay : OnTheWay cmd session now) (isEarly : session.device.state ∈ earlyStates)
    (commands : ∀ single ∈ changeDeviceStateByMultiCommand session.device.state cmd,
      single ∈ connectCommands) : Early now := by
  rcases onTheWay with rfl | ⟨actions, calm, reached⟩
  · refine ⟨isEarly, ?_⟩
    rw [atRest.control]
    nofun
  · rcases (run_cons_eq_some_iff _ _ _ _ _).mp reached with ⟨first, stepped, ran⟩
    simp only [Plugin.step, atRest.control] at stepped
    cases stepped
    have start : Early { session with
        control := .commands (changeDeviceStateByMultiCommand session.device.state cmd) } :=
      ⟨isEarly, commands⟩
    exact run_invariant (fun early calmly taken => Early.step early calmly taken) start
      (meets_of_forall_mem (fun _ => calm) _) ran

end NestDaq.Plugin
