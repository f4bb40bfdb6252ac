import NestDaq.Plugin.Shutdown
import NestDaq.Plugin.Waiting

/-!
# Times of runs

The control thread writes the start time of a run behind the wait loop of `Run`, and the
stop time behind that of `Stop` or on its way to `Exiting`. Both belong to commands, not
to states: a run that the device finishes by itself gets a stop time only if the control
thread has read `Running` by then and goes on as if the device were still running.
-/

namespace NestDaq.Plugin

open NestDaq.Transition

/-! ## The clock and the times -/

inductive TimeProperty
  | start
  | stop
  deriving DecidableEq, Repr

/-- The plugin with the shutdown sequence, once it has begun, and the time that it is
about to write. -/
structure Timed where
  session : Session
  shutdown : Option Shutdown
  writing : Option TimeProperty
  /-- The uptime. -/
  clock : Nat
  startTimeNS : Option Nat
  stopTimeNS : Option Nat
  deriving DecidableEq

inductive TimedAction
  /-- A step of the commands or of the device. -/
  | session (action : Action)
  /-- `SubscribeToDaqCommand` is over. -/
  | beginShutdown
  /-- A step of `RunShutdownSequence`. -/
  | shutdown
  /-- `WriteStartTime` or `WriteStopTime`. -/
  | write
  | tick (duration : Nat)
  deriving DecidableEq

/-- The time that is written behind a wait loop. -/
def timeAfter : DeviceStateTransition → Option TimeProperty
  | .run => some .start
  | .stop => some .stop
  | _ => none

/-- The time that a step makes the control thread write. -/
def timeOfStep : Control → Control → Option TimeProperty
  | .waiting wait _, .commands _ => timeAfter wait.transition
  | _, _ => none

/-- The control thread does not take the step. -/
def IsDevice : Action → Prop
  | .device _ => True
  | _ => False

instance decidableIsDevice : DecidablePred IsDevice
  | .device _ => .isTrue trivial
  | .command _ => .isFalse id
  | .readState => .isFalse id
  | .request => .isFalse id
  | .waitForNext => .isFalse id

/-- One step of the plugin, of the device or of the clock. -/
def timedStep : Step Timed TimedAction
  | timed, .session action =>
      if IsDevice action ∨ timed.writing = none ∧ timed.shutdown = none then
        (step timed.session action).map fun session =>
          { timed with
            session
            writing := (timeOfStep timed.session.control session.control).or timed.writing }
      else none
  | timed, .beginShutdown =>
      if timed.writing = none ∧ timed.shutdown = none ∧ timed.session.control = .commands [] then
        some { timed with shutdown := some .start }
      else none
  | timed, .shutdown =>
      match timed.writing, timed.shutdown with
      | none, some control =>
          (shutdownStep ⟨control, timed.session.device⟩ .control).map fun later =>
            { timed with
              session := { timed.session with device := later.device }
              shutdown := some later.control
              writing := if control = .handling .running then some .stop else none }
      | _, _ => none
  | timed, .write =>
      match timed.writing with
      | none => none
      | some .start => some { timed with writing := none, startTimeNS := some timed.clock }
      | some .stop => some { timed with writing := none, stopTimeNS := some timed.clock }
  | timed, .tick duration => some { timed with clock := timed.clock + duration }

namespace Timed

variable (timed : Timed)

/-- The control thread has finished a command, or the shutdown sequence. -/
def Finished : Prop :=
  timed.writing = none ∧
    (timed.shutdown = none ∧ timed.session.control = .commands [] ∨ timed.shutdown = some .done)

/-- No start time is recorded, or a stop time that is not earlier. -/
def StopRecorded : Prop :=
  ∀ start, timed.startTimeNS = some start → ∃ stop, timed.stopTimeNS = some stop ∧ start ≤ stop

/-- A device that does not run has its stop time whenever the control thread has finished. -/
def RunsClosed : Prop :=
  timed.Finished → timed.session.device.state ≠ .running → timed.StopRecorded

/-- The control thread is about to request `Stop`, or the shutdown sequence has read the
state of the device. -/
def StopComes : Prop :=
  match timed.shutdown with
  | none =>
      match timed.session.control with
      | .requesting transition _ _ => transition = .stop
      | _ => False
  | some control => control ≠ .start

/-- A run that the device finishes by itself is one that the control thread is about to
stop. -/
def FinishesToStop (action : TimedAction) : Prop :=
  action = .session (.device .finish) → timed.StopComes

instance : Decidable timed.StopComes := by
  unfold StopComes
  split
  · split <;> infer_instance
  · infer_instance

instance (action : TimedAction) : Decidable (timed.FinishesToStop action) :=
  inferInstanceAs (Decidable (_ → _))

/-- What is known of the stop time where the commands are. -/
def CommandTimes : Prop :=
  match timed.writing, timed.session.control with
  | some .start, .commands _ => timed.session.device.state = .running
  | some .stop, .commands _ => True
  | some _, _ => False
  | none, .commands _ => timed.StopRecorded ∨ timed.session.device.state = .running
  | none, .requesting transition _ _ => timed.StopRecorded ∨ transition = .stop
  | none, .waiting wait _ =>
      wait.transition = .stop ∨
        timed.StopRecorded ∧ (wait.transition = .run → timed.session.device.state = .running)

/-- What is known of it where the shutdown sequence is. -/
def ShutdownTimes : Shutdown → Prop
  | .start => timed.StopRecorded ∨ timed.session.device.state = .running
  | .clearing nextState => timed.StopRecorded ∨ nextState = .running
  | .handling nextState => timed.StopRecorded ∨ nextState = .running
  | .waiting => timed.StopRecorded ∨ timed.writing = some .stop
  | .done => timed.StopRecorded

/-- The invariant of the times. -/
structure Times : Prop where
  clock : ∀ start, timed.startTimeNS = some start → start ≤ timed.clock
  place :
    match timed.shutdown with
    | none => Invariant timed.session ∧ timed.CommandTimes
    | some control => timed.writing ≠ some .start ∧ timed.ShutdownTimes control

variable {timed next : Timed}

/-- What a step of the commands or of the device does. -/
theorem timedStep_session {action : Action}
    (stepped : timedStep timed (.session action) = some next) :
    (IsDevice action ∨ timed.writing = none ∧ timed.shutdown = none) ∧
      ∃ session, step timed.session action = some session ∧
        next = { timed with
          session
          writing := (timeOfStep timed.session.control session.control).or timed.writing } := by
  rcases Option.ite_none_right_eq_some.mp stepped with ⟨permitted, moved⟩
  rcases Option.map_eq_some_iff.mp moved with ⟨session, ran, equal⟩
  exact ⟨permitted, session, ran, equal.symm⟩

/-- A running device goes on running unless its run finishes. -/
theorem running_deviceStep {device next : Device} {action : DeviceAction}
    (running : device.state = .running) (notFinish : action ≠ .finish)
    (stepped : deviceStep device action = some next) : next.state = .running := by
  cases action with
  | automatic =>
      rw [deviceStep, running] at stepped
      cases stepped
  | finish => exact absurd rfl notFinish
  | push =>
      simp only [deviceStep] at stepped
      split at stepped
      · cases stepped
      · cases stepped
        exact running

theorem timeOfStep_self (control : Control) : timeOfStep control control = none := by
  cases control <;> rfl

/-- The device thread leaves the control thread where it is. -/
theorem step_device {session later : Session} {action : DeviceAction}
    (stepped : step session (.device action) = some later) :
    deviceStep session.device action = some later.device ∧ later.control = session.control := by
  rcases Option.map_eq_some_iff.mp stepped with ⟨device, moved, rfl⟩
  exact ⟨moved, rfl⟩

/-- A step of the device keeps what is known where the commands are. -/
theorem CommandTimes.device {session : Session} {action : DeviceAction} (times : timed.CommandTimes)
    (notShutdown : timed.shutdown = none) (finishes : action = .finish → timed.StopComes)
    (stepped : step timed.session (.device action) = some session) :
    CommandTimes { timed with session } := by
  rcases step_device stepped with ⟨moved, sameControl⟩
  have stays (notFinish : action ≠ .finish) (running : timed.session.device.state = .running) :
      session.device.state = .running :=
    running_deviceStep running notFinish moved
  by_cases finish : action = .finish
  · have comes := finishes finish
    simp only [StopComes, notShutdown] at comes
    split at comes
    · rename_i transition target rest isControl
      simp only [CommandTimes, isControl] at times
      simp only [CommandTimes, sameControl, isControl]
      cases isWriting : timed.writing with
      | none => exact Or.inr comes
      | some time => simp [isWriting] at times
    · cases comes
  · simp only [CommandTimes] at times
    simp only [CommandTimes, sameControl]
    split at times
    · exact stays finish times
    · exact times
    · exact times
    · exact times.imp id (stays finish)
    · exact times
    · exact times.imp id (fun both => ⟨both.1, fun isRun => stays finish (both.2 isRun)⟩)

/-- A step of the device keeps what is known where the shutdown sequence is. -/
theorem ShutdownTimes.device {session : Session} {action : DeviceAction} {control : Shutdown}
    (times : timed.ShutdownTimes control) (isShutdown : timed.shutdown = some control)
    (finishes : action = .finish → timed.StopComes)
    (stepped : step timed.session (.device action) = some session) :
    ShutdownTimes { timed with session } control := by
  cases control with
  | start =>
      apply times.imp id
      intro running
      apply running_deviceStep running _ (step_device stepped).1
      intro finish
      have comes := finishes finish
      rw [StopComes, isShutdown] at comes
      exact comes rfl
  | clearing nextState => exact times
  | handling nextState => exact times
  | waiting => exact times
  | done => exact times

/-! ## Steps of the control thread -/

/-- Only `Run` lets the device run. -/
theorem after_run {state next : DeviceState} (accepted : state.after .run = some next) :
    next = .running := by
  cases state <;> cases accepted
  rfl

/-- A step of the commands keeps what is known. -/
theorem CommandTimes.control {session : Session} {action : Action} (times : timed.CommandTimes)
    (invariant : Invariant timed.session) (notWriting : timed.writing = none)
    (notDevice : ¬ IsDevice action) (stepped : step timed.session action = some session) :
    CommandTimes
      { timed with session, writing := timeOfStep timed.session.control session.control } := by
  simp only [CommandTimes, notWriting] at times
  cases action with
  | device action => exact absurd trivial notDevice
  | command cmd =>
      simp only [step] at stepped
      split at stepped
      · rename_i isControl
        cases stepped
        simp only [isControl] at times
        simp only [CommandTimes, isControl, timeOfStep]
        exact times
      · cases stepped
  | readState =>
      simp only [step] at stepped
      split at stepped
      · rename_i cmd rest isControl
        cases stepped
        simp only [isControl] at times
        cases asks : (changeDeviceStateBySingleCommand timed.session.device.state cmd).request with
        | none =>
            simp only [CommandTimes, isControl, timeOfStep]
            exact times
        | some request =>
            simp only [CommandTimes, isControl, timeOfStep]
            apply times.imp id
            intro running
            have allows := allows_of_request asks
            rw [running] at allows
            exact allows.of_running.1
      · cases stepped
  | request =>
      simp only [step] at stepped
      split at stepped
      · rename_i transition target rest isControl
        cases stepped
        simp only [isControl] at times
        simp only [CommandTimes, isControl, timeOfStep]
        rcases times with recorded | isStop
        · by_cases isStop : transition = .stop
          · exact Or.inl isStop
          · right
            apply And.intro recorded
            rintro rfl
            rcases (invariant.requesting isControl).allowed with ⟨next, accepted, _⟩ | overtaken
            · rw [(Device.changeDeviceState_of_after accepted).1]
              exact after_run accepted
            · exact absurd overtaken.stop isStop
        · exact Or.inl isStop
      · cases stepped
  | waitForNext =>
      simp only [step] at stepped
      split at stepped
      · rename_i wait rest entry entries isControl queue
        cases stepped
        simp only [isControl] at times
        by_cases isTarget : entry.state = wait.target
        · -- the wait loop ends, and the time of its transition is written
          simp only [CommandTimes, isControl, isTarget, if_true, timeOfStep]
          rcases times with isStop | ⟨recorded, running⟩
          · simp [isStop, timeAfter]
          · cases isTransition : wait.transition with
            | run => exact running isTransition
            | stop => trivial
            | _ => exact Or.inl recorded
        · simp only [CommandTimes, isControl, isTarget, if_false, timeOfStep]
          exact times
      · cases stepped

/-- A step of the shutdown sequence keeps what is known. -/
theorem ShutdownTimes.control {control : Shutdown} {later : ShutdownSession}
    (times : timed.ShutdownTimes control) (notWriting : timed.writing = none)
    (stepped : shutdownStep ⟨control, timed.session.device⟩ .control = some later) :
    ShutdownTimes
      { timed with
        session := { timed.session with device := later.device }
        shutdown := some later.control
        writing := if control = .handling .running then some .stop else none } later.control := by
  cases control with
  | start =>
      cases stepped
      exact times
  | clearing nextState =>
      cases stepped
      exact times
  | handling nextState =>
      simp only [shutdownStep] at stepped
      split_ifs at stepped with isOver
      · cases stepped
        rcases times with recorded | running
        · exact recorded
        · rw [running] at isOver
          exact absurd isOver (by decide)
      · cases stepped
        apply times.imp id
        rintro rfl
        simp
  | waiting =>
      simp only [shutdownStep] at stepped
      split at stepped
      · cases stepped
      · cases stepped
        rcases times with recorded | writes
        · exact Or.inl recorded
        · rw [notWriting] at writes
          cases writes
  | done => cases stepped

/-! ## Runs -/

/-- The stop time is written. -/
theorem stopRecorded_of_write (clock : ∀ start, timed.startTimeNS = some start →
    start ≤ timed.clock) :
    StopRecorded { timed with writing := none, stopTimeNS := some timed.clock } :=
  fun start isStart => ⟨timed.clock, rfl, clock start isStart⟩

/-- The start time is written while the device is running, and the stop time is one that is
not earlier. -/
theorem CommandTimes.write {startTimeNS stopTimeNS : Option Nat} (times : timed.CommandTimes)
    (writes : timed.writing = some .start ∨
      timed.writing = some .stop ∧
        StopRecorded { timed with writing := none, startTimeNS, stopTimeNS }) :
    CommandTimes { timed with writing := none, startTimeNS, stopTimeNS } := by
  rcases writes with isWriting | ⟨isWriting, recorded⟩
  · cases isControl : timed.session.control with
    | commands rest =>
        simp only [CommandTimes, isWriting, isControl] at times
        simp only [CommandTimes, isControl]
        exact Or.inr times
    | requesting transition target rest => simp [CommandTimes, isWriting, isControl] at times
    | waiting wait rest => simp [CommandTimes, isWriting, isControl] at times
  · cases isControl : timed.session.control with
    | commands rest =>
        simp only [CommandTimes, isControl]
        exact Or.inl recorded
    | requesting transition target rest => simp [CommandTimes, isWriting, isControl] at times
    | waiting wait rest => simp [CommandTimes, isWriting, isControl] at times

/-- Every step that finishes only runs about to be stopped keeps the invariant. -/
theorem Times.step {action : TimedAction} (times : timed.Times)
    (finishes : timed.FinishesToStop action) (stepped : timedStep timed action = some next) :
    next.Times := by
  have place := times.place
  cases action with
  | session action =>
      rcases timedStep_session stepped with ⟨permitted, session, ran, rfl⟩
      refine ⟨times.clock, ?_⟩
      by_cases isDevice : IsDevice action
      · cases action with
        | device action =>
            have stops (finish : action = .finish) : timed.StopComes := finishes (finish ▸ rfl)
            have noTime : (timeOfStep timed.session.control session.control).or timed.writing =
                timed.writing := by
              rw [(step_device ran).2, timeOfStep_self, Option.none_or]
            simp only [noTime]
            cases isShutdown : timed.shutdown with
            | none =>
                simp only [isShutdown] at place
                have kept := place.2.device isShutdown stops ran
                rw [isShutdown] at kept
                exact ⟨place.1.step ran, kept⟩
            | some control =>
                simp only [isShutdown] at place
                have kept := place.2.device isShutdown stops ran
                rw [isShutdown] at kept
                exact ⟨place.1, kept⟩
        | _ => exact absurd isDevice id
      · rcases permitted.resolve_left isDevice with ⟨notWriting, notShutdown⟩
        simp only [notShutdown] at place
        simp only [notShutdown, notWriting, Option.or_none]
        have kept := place.2.control place.1 notWriting isDevice ran
        rw [notShutdown] at kept
        exact ⟨place.1.step ran, kept⟩
  | beginShutdown =>
      rcases Option.ite_none_right_eq_some.mp stepped with
        ⟨⟨notWriting, notShutdown, isControl⟩, equal⟩
      cases equal
      refine ⟨times.clock, ?_⟩
      simp only [notShutdown, CommandTimes, notWriting, isControl] at place
      exact ⟨by simp [notWriting], place.2⟩
  | shutdown =>
      simp only [timedStep] at stepped
      split at stepped
      · rename_i control notWriting isShutdown
        rcases Option.map_eq_some_iff.mp stepped with ⟨later, moved, rfl⟩
        refine ⟨times.clock, ?_⟩
        simp only [isShutdown] at place
        constructor
        · split_ifs <;> simp
        · exact place.2.control notWriting moved
      · cases stepped
  | write =>
      simp only [timedStep] at stepped
      split at stepped
      · cases stepped
      · rename_i isWriting
        cases stepped
        constructor
        · rintro start ⟨⟩
          exact Nat.le_refl _
        · cases isShutdown : timed.shutdown with
          | none =>
              simp only [isShutdown] at place
              have kept := @CommandTimes.write timed (some timed.clock) timed.stopTimeNS place.2
                (Or.inl isWriting)
              rw [isShutdown] at kept
              exact ⟨place.1, kept⟩
          | some control =>
              simp only [isShutdown] at place
              exact absurd isWriting place.1
      · rename_i isWriting
        cases stepped
        have recorded := stopRecorded_of_write times.clock
        constructor
        · exact times.clock
        · cases isShutdown : timed.shutdown with
          | none =>
              simp only [isShutdown] at place
              have kept := place.2.write (Or.inr ⟨isWriting, recorded⟩)
              rw [isShutdown] at kept
              exact ⟨place.1, kept⟩
          | some control =>
              apply And.intro (by simp)
              cases control with
              | waiting => exact Or.inl recorded
              | start => exact Or.inl recorded
              | clearing nextState => exact Or.inl recorded
              | handling nextState => exact Or.inl recorded
              | done => exact recorded
  | tick duration =>
      cases stepped
      constructor
      · intro start isStart
        exact Nat.le_trans (times.clock start isStart) (Nat.le_add_right _ _)
      · exact place

/-- The invariant gives what is wanted when the control thread has finished. -/
theorem Times.runsClosed (times : timed.Times) : timed.RunsClosed := by
  rintro ⟨notWriting, ⟨notShutdown, isControl⟩ | isDone⟩ notRunning
  · have place := times.place
    simp only [notShutdown, CommandTimes, notWriting, isControl] at place
    exact place.2.resolve_right notRunning
  · have place := times.place
    simp only [isDone] at place
    exact place.2

end Timed

/-- The plugin starts without times, with its startup sequence. -/
structure TimedInitial (timed : Timed) : Prop where
  session : Initial timed.session
  shutdown : timed.shutdown = none
  writing : timed.writing = none
  startTimeNS : timed.startTimeNS = none

theorem TimedInitial.times {timed : Timed} (initial : TimedInitial timed) : timed.Times := by
  have recorded : timed.StopRecorded := by
    intro start isStart
    rw [initial.startTimeNS] at isStart
    cases isStart
  rcases initial.session.control with ⟨rest, isControl⟩
  constructor
  · intro start isStart
    rw [initial.startTimeNS] at isStart
    cases isStart
  · simp only [initial.shutdown, Timed.CommandTimes, initial.writing, isControl]
    exact ⟨initial.session.invariant, Or.inl recorded⟩

/-- Every finished run has its stop time if a run finishes by itself only when the control
thread is about to stop it, and a run that finishes while the control thread waits for a
command has none. -/
theorem stopTime_recorded {timed : Timed} (initial : TimedInitial timed)
    (actions : List TimedAction) :
    (Meets timedStep Timed.FinishesToStop timed actions →
        Always timedStep Timed.RunsClosed timed actions) ∧
      ∀ last next start, run timedStep timed actions = some last → last.Finished →
        last.shutdown = none → last.startTimeNS = some start →
          (∀ stop, last.stopTimeNS = some stop → stop < start) →
            timedStep last (.session (.device .finish)) = some next → ¬ next.RunsClosed := by
  constructor
  · exact always_of_invariant Timed.Times.step Timed.Times.runsClosed initial.times
  · intro last next start _ finished notShutdown isStart earlier stepped closed
    rcases Timed.timedStep_session stepped with ⟨_, session, ran, rfl⟩
    rcases Timed.step_device ran with ⟨entered, sameControl⟩
    have isControl : last.session.control = .commands [] := by
      rcases finished.2 with both | isDone
      · exact both.2
      · cases notShutdown.symm.trans isDone
    have ready : session.device.state ≠ .running := by
      rcases Option.ite_none_right_eq_some.mp entered with ⟨_, equal⟩
      rw [← Option.some.inj equal, Device.state_enter]
      decide
    have waits : Timed.Finished
        { last with
          session
          writing := (timeOfStep last.session.control session.control).or last.writing } := by
      constructor
      · rw [sameControl, Timed.timeOfStep_self, finished.1]
        rfl
      · exact Or.inl ⟨notShutdown, sameControl.trans isControl⟩
    rcases closed waits ready start isStart with ⟨stop, isStop, later⟩
    exact absurd later (Nat.not_le.mpr (earlier stop isStop))

/-- The steps of a single command, with the states that the device enters by itself and
those that it pushes. -/
def singleSteps (automatic : List Action) (pushes : Nat) : List Action :=
  [.readState, .request] ++ automatic ++ List.replicate pushes (.device .push) ++
    List.replicate pushes .waitForNext

/-- The device is idle and its state has been read. -/
def idleTimed : Timed where
  session :=
    { control := .commands [], device := ⟨.idle, [], [], 0, 0⟩, fResetDeviceRequested := false }
  shutdown := none
  writing := none
  clock := 0
  startTimeNS := none
  stopTimeNS := none

theorem idleTimed_initial : TimedInitial idleTimed :=
  ⟨⟨⟨[], rfl⟩, rfl, Or.inl rfl, rfl⟩, rfl, rfl, rfl⟩

/-- `RUN` takes the idle device to `Running`, and the start time is written. -/
def runSteps : List TimedAction :=
  ([Action.command FairmqCommand.run] ++ singleSteps [] 1 ++ singleSteps [] 1 ++
    singleSteps [.device .automatic] 2 ++ singleSteps [.device .automatic] 2 ++
    singleSteps [.device .automatic] 2 ++ singleSteps [] 1).map .session ++ [.write]

/-- A run that finishes by itself has no stop time. -/
theorem stopTime_not_recorded :
    ¬ ∀ timed, TimedInitial timed → ∀ actions,
      Always timedStep Timed.RunsClosed timed actions := by
  intro recorded
  have always := recorded idleTimed idleTimed_initial (runSteps ++ [.session (.device .finish)])
  rw [always_iff_forall_reached] at always
  have closed := always _ List.prefix_rfl
  have reached : (run timedStep idleTimed (runSteps ++ [.session (.device .finish)])).any
      (fun last => decide (last.writing = none ∧ last.shutdown = none ∧
        last.session.control = .commands [] ∧ last.session.device.state = .ready ∧
          last.startTimeNS = some 0 ∧ last.stopTimeNS = none)) = true := by
    decide +kernel
  rcases (Option.any_eq_true _ _).mp reached with ⟨last, ran, isLast⟩
  rcases of_decide_eq_true isLast with
    ⟨writing, shutdown, isControl, ready, isStart, isStop⟩
  have notRunning : last.session.device.state ≠ .running := by
    rw [ready]
    decide
  rcases closed last ran ⟨writing, Or.inl ⟨shutdown, isControl⟩⟩ notRunning 0 isStart with
    ⟨stop, hasStop, _⟩
  rw [isStop] at hasStop
  cases hasStop

/-- A run that finishes in front of the request of `Stop` has a stop time. -/
theorem stopTime_recorded_overtaken :
    Always timedStep Timed.RunsClosed idleTimed
      (runSteps ++ [.tick 5, .session (.command FairmqCommand.stop), .session .readState,
        .session (.device .finish), .session .request, .session (.device .push),
        .session .waitForNext, .write]) :=
  (stopTime_recorded idleTimed_initial _).1 (by decide +kernel)

end NestDaq.Plugin
