import NestDaq.Plugin.State

/-!
# The shutdown sequence

`RunShutdownSequence` follows the device to `Exiting` by the states it takes
from `fStateQueue`. The first state is read from the device instead, and the
queue is cleared afterwards: an entry pushed in between is lost, and when the
device has come to rest the loop waits for an entry that nobody pushes. A step
of the control thread is one of its three ways to touch the device: reading the
state, clearing the queue, and requesting the transition for a state.
-/

namespace NestDaq.Plugin

open NestDaq.Transition

/-- Where `RunShutdownSequence` is, with the value of `nextState`. -/
inductive Shutdown
  | start
  | clearing (nextState : DeviceState)
  | handling (nextState : DeviceState)
  | waiting
  | done
  deriving DecidableEq, Repr

structure ShutdownSession where
  control : Shutdown
  device : Device
  deriving DecidableEq, Repr

inductive ShutdownAction
  | control
  | device (action : DeviceAction)
  deriving DecidableEq, Repr

/-- The transition requested for a state on the way to `Exiting`. -/
def shutdownTransition : DeviceState → Option DeviceStateTransition
  | .idle => some .end
  | .initializingDevice => some .completeInit
  | .initialized => some .resetDevice
  | .bound => some .resetDevice
  | .deviceReady => some .resetDevice
  | .ready => some .resetTask
  | .running => some .stop
  | _ => none

/-- The request made for a state, if it has one. -/
def Device.shutDown (device : Device) (nextState : DeviceState) : Device :=
  match shutdownTransition nextState with
  | none => device
  | some transition => device.changeDeviceState transition

/-- One step of `RunShutdownSequence` or of the device thread. -/
def shutdownStep : Step ShutdownSession ShutdownAction
  | session, .control =>
      match session.control with
      | .start => some { session with control := .clearing session.device.state }
      | .clearing nextState =>
          some
            { control := .handling nextState
              device := if nextState = .error then session.device else session.device.clear }
      | .handling nextState =>
          if nextState = .exiting ∨ nextState = .error then some { session with control := .done }
          else some { control := .waiting, device := session.device.shutDown nextState }
      | .waiting =>
          match session.device.fStateQueue with
          | [] => none
          | entry :: _ =>
              some { control := .handling entry.state, device := session.device.dropNext }
      | .done => none
  | session, .device action =>
      (deviceStep session.device action).map fun device => { session with device }

/-- The control thread waits at an empty queue, and the device rests with
nothing left to push. -/
structure Stuck (session : ShutdownSession) : Prop where
  waiting : session.control = .waiting
  unread : session.device.unread = []
  rests : session.device.state.automatic = none
  notOver : session.device.state ≠ .exiting ∧ session.device.state ≠ .error

/-- When the queue is cleared the device is in the state read before, or a state
has still to be pushed, or the device leaves its state by itself. -/
def KeepsNotice (session : ShutdownSession) : Prop :=
  ∀ nextState, session.control = .clearing nextState →
    session.device.state = nextState ∨ session.device.entered ≠ [] ∨
      session.device.state.automatic ≠ none

/-! ## The invariant -/

/-- The last state still to be seen in a list of states is the current one. -/
def EndsIn (states : List DeviceState) (state : DeviceState) : Prop :=
  ∀ last ∈ states.getLast?, last = state

/-- Something is still to be seen in the queue. -/
def Coming (device : Device) : Prop :=
  device.unread ≠ [] ∨ device.state.automatic ≠ none

/-- The invariant of the shutdown sequence. -/
def ShutdownInvariant (session : ShutdownSession) : Prop :=
  match session.control with
  | .start => EndsIn session.device.entered session.device.state
  | .clearing _ => EndsIn session.device.entered session.device.state
  | .handling nextState =>
      nextState = .exiting ∨ nextState = .error ∨
        EndsIn session.device.unread session.device.state ∧
          (Coming session.device ∨ session.device.state = nextState)
  | .waiting => EndsIn session.device.unread session.device.state ∧ Coming session.device
  | .done => True

section Device

variable {device next : Device} {action : DeviceAction}

theorem EndsIn.concat (states : List DeviceState) (state : DeviceState) :
    EndsIn (states ++ [state]) state := by
  intro last member
  rw [List.getLast?_concat] at member
  exact (Option.some.inj member).symm

theorem EndsIn.tail {first state : DeviceState} {rest : List DeviceState}
    (ends : EndsIn (first :: rest) state) : EndsIn rest state := by
  intro last member
  apply ends
  cases rest with
  | nil => cases member
  | cons second rest => exact member

/-- The last of the states entered or pushed is the current one after any step. -/
theorem EndsIn.deviceStep (stepped : deviceStep device action = some next) :
    (EndsIn device.entered device.state → EndsIn next.entered next.state) ∧
      (EndsIn device.unread device.state → EndsIn next.unread next.state) := by
  rcases Device.deviceStep_cases stepped with
    ⟨state, _, rfl⟩ | ⟨_, rfl⟩ | ⟨oldest, rest, oldestFirst, rfl⟩
  · refine ⟨fun _ => EndsIn.concat _ _, fun _ => ?_⟩
    rw [Device.unread_enter]
    exact EndsIn.concat _ _
  · refine ⟨fun _ => EndsIn.concat _ _, fun _ => ?_⟩
    rw [Device.unread_enter]
    exact EndsIn.concat _ _
  · constructor
    · intro ends
      rw [oldestFirst] at ends
      exact ends.tail
    · intro ends
      rwa [Device.unread_push oldestFirst]

/-- After every step of the device thread something is still to be seen. -/
theorem Coming.deviceStep (stepped : deviceStep device action = some next) : Coming next := by
  apply Or.inl
  rcases Device.deviceStep_cases stepped with
    ⟨state, _, rfl⟩ | ⟨_, rfl⟩ | ⟨oldest, rest, oldestFirst, rfl⟩
  · simp
  · simp
  · rw [Device.unread_push oldestFirst, Device.unread, oldestFirst]
    simp

/-- Every state but the final ones has a transition that it allows, or is left
by the device itself. -/
theorem shutdownTransition_cases (state : DeviceState) :
    (state = .exiting ∨ state = .error) ∨
      (∃ transition next, shutdownTransition state = some transition ∧
        state.after transition = some next) ∨
      shutdownTransition state = none ∧ state.automatic ≠ none := by
  cases state <;> simp [shutdownTransition, DeviceState.after, DeviceState.automatic]

/-- A request leaves something to be seen, if there was something before or the
request is the one for the state the device is in. -/
theorem coming_shutDown {state : DeviceState} (notOver : ¬ (state = .exiting ∨ state = .error))
    (ends : EndsIn device.unread device.state)
    (expected : Coming device ∨ device.state = state) :
    EndsIn (device.shutDown state).unread (device.shutDown state).state ∧
      Coming (device.shutDown state) := by
  rcases shutdownTransition_cases state with isOver | ⟨transition, entered, requests, accepts⟩ |
      ⟨none, leaves⟩
  · exact absurd isOver notOver
  · have asks : device.shutDown state = device.changeDeviceState transition := by
      simp only [Device.shutDown, requests]
    rw [asks]
    cases after : device.state.after transition with
    | some next =>
        rcases Device.changeDeviceState_of_after after with ⟨isState, unread, _⟩
        rw [unread, isState]
        refine ⟨EndsIn.concat _ _, Or.inl ?_⟩
        rw [unread]
        simp
    | none =>
        rw [Device.changeDeviceState_of_refused after]
        refine ⟨ends, ?_⟩
        rcases expected with coming | same
        · exact coming
        · rw [same, accepts] at after
          cases after
  · have asksNothing : device.shutDown state = device := by
      simp only [Device.shutDown, none]
    rw [asksNothing]
    refine ⟨ends, ?_⟩
    rcases expected with coming | same
    · exact coming
    · exact Or.inr (same ▸ leaves)

/-- Once an entry is taken, more is to be seen or it names the current state. -/
theorem coming_dropNext {entry : Entry} {rest : List Entry}
    (queue : device.fStateQueue = entry :: rest) (ends : EndsIn device.unread device.state) :
    EndsIn device.dropNext.unread device.state ∧
      (Coming device.dropNext ∨ device.state = entry.state) := by
  rw [Device.unread_dropNext queue] at ends
  refine ⟨ends.tail, ?_⟩
  by_cases none : device.dropNext.unread = []
  · rw [none] at ends
    exact Or.inr (ends entry.state rfl).symm
  · exact Or.inl (Or.inl none)

end Device

variable {session later : ShutdownSession}

/-- Steps that keep the notice preserve the invariant. -/
theorem ShutdownInvariant.step {action : ShutdownAction} (invariant : ShutdownInvariant session)
    (keeps : action = .control → KeepsNotice session)
    (stepped : shutdownStep session action = some later) : ShutdownInvariant later := by
  unfold ShutdownInvariant at invariant
  cases action with
  | control =>
      simp only [shutdownStep] at stepped
      split at stepped
      · rename_i isControl
        cases stepped
        rw [isControl] at invariant
        exact invariant
      · rename_i nextState isControl
        cases stepped
        rw [isControl] at invariant
        by_cases isError : nextState = .error
        · exact Or.inr (Or.inl isError)
        · rw [if_neg isError]
          refine Or.inr (Or.inr ⟨invariant, ?_⟩)
          rcases keeps rfl nextState isControl with same | unpushed | leaves
          · exact Or.inr same
          · exact Or.inl (Or.inl unpushed)
          · exact Or.inl (Or.inr leaves)
      · rename_i nextState isControl
        rw [isControl] at invariant
        by_cases isOver : nextState = .exiting ∨ nextState = .error
        · rw [if_pos isOver] at stepped
          cases stepped
          trivial
        · rw [if_neg isOver] at stepped
          cases stepped
          rcases invariant with isExiting | isError | ⟨ends, expected⟩
          · exact absurd (Or.inl isExiting) isOver
          · exact absurd (Or.inr isError) isOver
          · exact coming_shutDown isOver ends expected
      · rename_i isControl
        rw [isControl] at invariant
        split at stepped
        · cases stepped
        · rename_i entry rest queue
          cases stepped
          exact Or.inr (Or.inr (coming_dropNext queue invariant.1))
      · cases stepped
  | device action =>
      rcases Option.map_eq_some_iff.mp stepped with ⟨next, moved, rfl⟩
      have ends := EndsIn.deviceStep moved
      have coming := Coming.deviceStep moved
      unfold ShutdownInvariant
      cases isControl : session.control with
      | start =>
          rw [isControl] at invariant
          exact ends.1 invariant
      | clearing nextState =>
          rw [isControl] at invariant
          exact ends.1 invariant
      | handling nextState =>
          rw [isControl] at invariant
          rcases invariant with isExiting | isError | ⟨before, _⟩
          · exact Or.inl isExiting
          · exact Or.inr (Or.inl isError)
          · exact Or.inr (Or.inr ⟨ends.2 before, Or.inl coming⟩)
      | waiting =>
          rw [isControl] at invariant
          exact ⟨ends.2 invariant.1, coming⟩
      | done => trivial

theorem ShutdownInvariant.not_stuck (invariant : ShutdownInvariant session) : ¬ Stuck session := by
  intro stuck
  unfold ShutdownInvariant at invariant
  rw [stuck.waiting] at invariant
  rcases invariant.2 with unread | leaves
  · exact unread stuck.unread
  · exact leaves stuck.rests

/-- The sequence starts at a device that has pushed every state entered before
the current one, or will push them in order. -/
structure ShutdownStarts (session : ShutdownSession) : Prop where
  control : session.control = .start
  entered : EndsIn session.device.entered session.device.state

theorem ShutdownStarts.invariant (starts : ShutdownStarts session) :
    ShutdownInvariant session := by
  unfold ShutdownInvariant
  rw [starts.control]
  exact starts.entered

/-! ## Entries lost by clearing the queue -/

/-- How far a device may have moved by itself since its state was read. -/
def MovedFrom (first state : DeviceState) : Prop :=
  state = first ∨ first.automatic = some state ∨ first = .running ∧ state = .ready

theorem MovedFrom.deviceStep {device next : Device} {action : DeviceAction}
    {first : DeviceState} (moved : MovedFrom first device.state)
    (stepped : deviceStep device action = some next) : MovedFrom first next.state := by
  rcases Device.deviceStep_cases stepped with
    ⟨state, steps, rfl⟩ | ⟨running, rfl⟩ | ⟨_, _, _, rfl⟩
  · rcases moved with same | left | ⟨_, ready⟩
    · exact Or.inr (Or.inl (same ▸ steps))
    · cases steps.symm.trans (DeviceState.automatic_of_automatic left)
    · rw [ready] at steps
      cases steps
  · rcases moved with same | left | ⟨_, ready⟩
    · exact Or.inr (Or.inr ⟨same.symm.trans running, rfl⟩)
    · rw [running] at left
      cases first <;> cases left
    · cases running.symm.trans ready
  · exact moved

/-- Whatever the device does, it is not far from the state that was read. -/
def Follows (session : ShutdownSession) : Prop :=
  ∀ nextState, session.control = .clearing nextState → MovedFrom nextState session.device.state

theorem Follows.step {action : ShutdownAction} (follows : Follows session)
    (stepped : shutdownStep session action = some later) : Follows later := by
  intro nextState isClearing
  cases action with
  | control =>
      simp only [shutdownStep] at stepped
      split at stepped
      · cases stepped
        cases isClearing
        exact Or.inl rfl
      · cases stepped
        cases isClearing
      · split at stepped <;> cases stepped <;> cases isClearing
      · split at stepped <;> cases stepped
        cases isClearing
      · cases stepped
  | device action =>
      rcases Option.map_eq_some_iff.mp stepped with ⟨next, moved, rfl⟩
      exact (follows nextState isClearing).deviceStep moved

/-- Nothing is requested for a state that the device leaves by itself. -/
theorem shutdownTransition_of_automatic {first state : DeviceState}
    (left : first.automatic = some state) :
    shutdownTransition first = none ∧ ¬ (first = .exiting ∨ first = .error) ∧
      state ≠ .exiting ∧ state ≠ .error := by
  cases first <;> cases left <;> decide

/-- The request for the state that was read does not reach a device that has
moved on. -/
theorem shutDown_of_movedFrom {device : Device} {first : DeviceState}
    (moved : MovedFrom first device.state) (differs : device.state ≠ first) :
    ¬ (first = .exiting ∨ first = .error) ∧
      (device.state ≠ .exiting ∧ device.state ≠ .error) ∧
      (device.shutDown first).unread = device.unread ∧
      (device.shutDown first).state = device.state := by
  rcases moved with same | left | ⟨rfl, isReady⟩
  · exact absurd same differs
  · rcases shutdownTransition_of_automatic left with ⟨none, notOver, reached⟩
    have asksNothing : device.shutDown first = device := by
      simp only [Device.shutDown, none]
    rw [asksNothing]
    exact ⟨notOver, reached, rfl, rfl⟩
  · have refused : device.state.after .stop = none := by
      rw [isReady]
      rfl
    simp [Device.shutDown, shutdownTransition, Device.changeDeviceState_of_refused refused, isReady,
      Device.unread]

/-- When the queue is cleared without keeping the notice, the control thread
gets stuck. -/
theorem stuck_of_not_keepsNotice (follows : Follows session) {nextState : DeviceState}
    (isControl : session.control = .clearing nextState) (lost : ¬ KeepsNotice session) :
    ∃ stuck, run shutdownStep session [.control, .control] = some stuck ∧ Stuck stuck := by
  simp only [KeepsNotice, not_forall, not_or, not_not] at lost
  rcases lost with ⟨other, same, differs, pushed, rests⟩
  cases isControl.symm.trans same
  rcases @shutDown_of_movedFrom session.device.clear _ (follows _ isControl) differs with
    ⟨notOver, reached, unread, state⟩
  have notError : nextState ≠ .error := fun isError => notOver (Or.inr isError)
  have notExiting : nextState ≠ .exiting := fun isExiting => notOver (Or.inl isExiting)
  refine ⟨⟨.waiting, session.device.clear.shutDown nextState⟩, ?_, rfl, ?_, ?_, ?_⟩
  · simp [run, shutdownStep, isControl, notError, notExiting]
  · rw [unread]
    exact pushed
  · rw [state]
    exact rests
  · rw [state]
    exact reached

/-- Shutdown never gets stuck in a run that keeps the notice whenever the queue
is cleared, and every run in which it is lost goes on to a stuck state. -/
theorem runShutdownSequence_stuck_iff (starts : ShutdownStarts session)
    (actions : List ShutdownAction) :
    (Meets shutdownStep (fun session action => action = .control → KeepsNotice session) session
        actions → Always shutdownStep (fun session => ¬ Stuck session) session actions) ∧
      ∀ last nextState, run shutdownStep session actions = some last →
        last.control = .clearing nextState → ¬ KeepsNotice last →
          ∃ stuck, run shutdownStep last [.control, .control] = some stuck ∧ Stuck stuck := by
  constructor
  · intro keeps
    exact always_of_invariant ShutdownInvariant.step ShutdownInvariant.not_stuck starts.invariant
      keeps
  · intro last nextState reached isControl lost
    have initial : Follows session := by
      intro other isClearing
      cases starts.control.symm.trans isClearing
    have follows : Follows last :=
      run_invariant (fun follows _ stepped => Follows.step follows stepped) initial
        (meets_of_forall (fun _ _ => True.intro) session actions) reached
    exact stuck_of_not_keepsNotice follows isControl lost

/-- A run that finishes, and pushes `Ready`, between the reading of `Running`
and `Clear`. -/
def finishingRun : List ShutdownAction :=
  [.control, .device .finish, .device .push, .control, .control]

/-- A running device whose `Running` has been pushed. -/
def runningSession : ShutdownSession :=
  ⟨.start, ⟨.running, [], [⟨.running, 1⟩], 1, 1⟩⟩

/-- Shutdown gets stuck when the run finishes in front of `Clear`. -/
theorem runShutdownSequence_stuck :
    ¬ ∀ session : ShutdownSession, ShutdownStarts session → ∀ actions last,
      run shutdownStep session actions = some last → ¬ Stuck last := by
  intro never
  have starts : ShutdownStarts runningSession := ⟨rfl, fun last member => by cases member⟩
  have stuck : Stuck ⟨.waiting, ⟨.ready, [], [], 2, 1⟩⟩ := ⟨rfl, rfl, rfl, by decide⟩
  exact never runningSession starts finishingRun _ rfl stuck

/-- The same run is never stuck when it finishes after `Clear`. -/
theorem runShutdownSequence_finishes_later :
    Always shutdownStep (fun session => ¬ Stuck session) runningSession
      [.control, .control, .device .finish, .device .push, .control] := by
  apply (runShutdownSequence_stuck_iff ⟨rfl, fun last member => by cases member⟩ _).1
  have elsewhere {session : ShutdownSession} {action : ShutdownAction}
      (notClearing : ∀ state, session.control ≠ .clearing state) :
      action = .control → KeepsNotice session :=
    fun _ state isClearing => absurd isClearing (notClearing state)
  refine ⟨elsewhere (by rintro _ ⟨⟩), ?_⟩
  rintro _ ⟨⟩
  refine ⟨fun _ state isClearing => Or.inl (by cases isClearing; rfl), ?_⟩
  rintro _ ⟨⟩
  refine ⟨elsewhere (by rintro _ ⟨⟩), ?_⟩
  rintro _ ⟨⟩
  refine ⟨elsewhere (by rintro _ ⟨⟩), ?_⟩
  rintro _ ⟨⟩
  exact ⟨elsewhere (by rintro _ ⟨⟩), fun _ _ => True.intro⟩

end NestDaq.Plugin
