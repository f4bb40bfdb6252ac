import NestDaq.Text.Core
import NestDaq.Transition.Run

/-!
# The device and its state queue

The part of the FairMQ state machine that the plugin drives: the transitions a
device accepts, the automatic steps out of its intermediate states, and the
notification of every state it enters. The state change callback of the plugin
pushes these states to `fStateQueue` in the order in which they were entered,
each at some later moment, so a device also carries the states that its
callback has still to push.
-/

namespace NestDaq.Plugin

open NestDaq.Transition

/-- `DeviceState`. -/
inductive DeviceState
  | error
  | idle
  | initializingDevice
  | initialized
  | binding
  | bound
  | connecting
  | deviceReady
  | initializingTask
  | ready
  | running
  | resettingTask
  | resettingDevice
  | exiting
  deriving DecidableEq, Repr

/-- `DeviceStateTransition`. -/
inductive DeviceStateTransition
  | initDevice
  | completeInit
  | bind
  | connect
  | initTask
  | run
  | stop
  | resetTask
  | resetDevice
  | «end»
  deriving DecidableEq, Repr

namespace DeviceState

/-- The state entered by an allowed transition. -/
def after : DeviceState → DeviceStateTransition → Option DeviceState
  | idle, .initDevice => some initializingDevice
  | idle, .end => some exiting
  | initializingDevice, .completeInit => some initialized
  | initialized, .bind => some binding
  | initialized, .resetDevice => some resettingDevice
  | bound, .connect => some connecting
  | bound, .resetDevice => some resettingDevice
  | deviceReady, .initTask => some initializingTask
  | deviceReady, .resetDevice => some resettingDevice
  | ready, .run => some running
  | ready, .resetTask => some resettingTask
  | running, .stop => some ready
  | _, _ => none

/-- The state that an intermediate state is left for without any request. -/
def automatic : DeviceState → Option DeviceState
  | binding => some bound
  | connecting => some deviceReady
  | initializingTask => some ready
  | resettingTask => some deviceReady
  | resettingDevice => some idle
  | _ => none

/-- `GetStateName`. -/
def name : DeviceState → Text
  | error => "ERROR".toList
  | idle => "IDLE".toList
  | initializingDevice => "INITIALIZING DEVICE".toList
  | initialized => "INITIALIZED".toList
  | binding => "BINDING".toList
  | bound => "BOUND".toList
  | connecting => "CONNECTING".toList
  | deviceReady => "DEVICE READY".toList
  | initializingTask => "INITIALIZING TASK".toList
  | ready => "READY".toList
  | running => "RUNNING".toList
  | resettingTask => "RESETTING TASK".toList
  | resettingDevice => "RESETTING DEVICE".toList
  | exiting => "EXITING".toList

/-- The state in which the automatic steps end. -/
def settled (state : DeviceState) : DeviceState :=
  state.automatic.getD state

/-- An automatic step ends in a state without one. -/
theorem automatic_of_automatic {state next : DeviceState} (steps : state.automatic = some next) :
    next.automatic = none := by
  cases state <;> cases steps <;> rfl

theorem settled_of_automatic_eq_none {state : DeviceState} (rests : state.automatic = none) :
    state.settled = state := by
  rw [settled, rests, Option.getD_none]

theorem settled_of_automatic {state next : DeviceState} (steps : state.automatic = some next) :
    state.settled = next := by
  rw [settled, steps, Option.getD_some]

end DeviceState

/-- An entry of `fStateQueue`, with the number of transitions that had been
requested when it was pushed. -/
structure Entry where
  state : DeviceState
  requests : Nat
  deriving DecidableEq, Repr

/-- A device together with the queue of the plugin. The last two fields only
observe: how many transitions have been requested, and which of these requests
made the device run for the last time. -/
structure Device where
  state : DeviceState
  /-- The states entered and not yet pushed, oldest first. -/
  entered : List DeviceState
  fStateQueue : List Entry
  requests : Nat
  runRequest : Nat
  deriving DecidableEq, Repr

namespace Device

/-- The states that a reader of the queue has still to see. -/
def unread (device : Device) : List DeviceState :=
  device.fStateQueue.map Entry.state ++ device.entered

/-- The unread states followed by the one the device enters by itself. -/
def upcoming (device : Device) : List DeviceState :=
  device.unread ++ device.state.automatic.toList

/-- Enter a state; the callback is notified of it. -/
def enter (device : Device) (next : DeviceState) : Device :=
  { device with state := next, entered := device.entered ++ [next] }

/-- `ChangeDeviceState`. A transition that is not allowed in the current state
is refused without effect. -/
def changeDeviceState (device : Device) (transition : DeviceStateTransition) : Device :=
  let asked := { device with requests := device.requests + 1 }
  match device.state.after transition with
  | none => asked
  | some next =>
      { asked.enter next with
        runRequest := if transition = .run then asked.requests else device.runRequest }

/-- `fStateQueue.Clear()`. -/
def clear (device : Device) : Device :=
  { device with fStateQueue := [] }

/-- The next entry is taken by `fStateQueue.WaitForNext()`. -/
def dropNext (device : Device) : Device :=
  { device with fStateQueue := device.fStateQueue.tail }

end Device

/-- What the device thread does on its own. -/
inductive DeviceAction
  /-- It leaves an intermediate state. -/
  | automatic
  /-- A running device finishes its run. -/
  | finish
  /-- The state change callback pushes the oldest state entered. -/
  | push
  deriving DecidableEq, Repr

/-- One step of the device thread. -/
def deviceStep : Step Device DeviceAction
  | device, .automatic => device.state.automatic.map device.enter
  | device, .finish => if device.state = .running then some (device.enter .ready) else none
  | device, .push =>
      match device.entered with
      | [] => none
      | oldest :: rest =>
          some { device with
            entered := rest
            fStateQueue := device.fStateQueue ++ [⟨oldest, device.requests⟩] }

namespace Device

variable {device next : Device}

@[simp]
theorem unread_enter (device : Device) (state : DeviceState) :
    (device.enter state).unread = device.unread ++ [state] := by
  simp [unread, enter]

@[simp]
theorem state_enter (device : Device) (state : DeviceState) :
    (device.enter state).state = state :=
  rfl

@[simp]
theorem fStateQueue_enter (device : Device) (state : DeviceState) :
    (device.enter state).fStateQueue = device.fStateQueue :=
  rfl

@[simp]
theorem requests_enter (device : Device) (state : DeviceState) :
    (device.enter state).requests = device.requests :=
  rfl

@[simp]
theorem runRequest_enter (device : Device) (state : DeviceState) :
    (device.enter state).runRequest = device.runRequest :=
  rfl

/-- A step of the device thread enters a state by itself or pushes one. -/
theorem deviceStep_cases {action : DeviceAction} (stepped : deviceStep device action = some next) :
    (∃ state, device.state.automatic = some state ∧ next = device.enter state) ∨
      (device.state = .running ∧ next = device.enter .ready) ∨
      ∃ oldest rest, device.entered = oldest :: rest ∧
        next = { device with
          entered := rest
          fStateQueue := device.fStateQueue ++ [⟨oldest, device.requests⟩] } := by
  cases action with
  | automatic =>
      obtain ⟨state, steps, rfl⟩ := Option.map_eq_some_iff.mp stepped
      exact .inl ⟨state, steps, rfl⟩
  | finish =>
      obtain ⟨runs, equal⟩ := Option.ite_none_right_eq_some.mp stepped
      exact .inr (.inl ⟨runs, (Option.some.inj equal).symm⟩)
  | push =>
      simp only [deviceStep] at stepped
      split at stepped
      · cases stepped
      · exact .inr (.inr ⟨_, _, ‹_›, (Option.some.inj stepped).symm⟩)

/-- The device thread makes no request. -/
theorem requests_deviceStep {action : DeviceAction}
    (stepped : deviceStep device action = some next) :
    next.requests = device.requests ∧ next.runRequest = device.runRequest := by
  rcases deviceStep_cases stepped with ⟨_, _, rfl⟩ | ⟨_, rfl⟩ | ⟨_, _, _, rfl⟩
  · exact ⟨rfl, rfl⟩
  · exact ⟨rfl, rfl⟩
  · exact ⟨rfl, rfl⟩

/-- What the queue holds after a step of the device thread was in it before or
was pushed by the step. -/
theorem mem_fStateQueue_deviceStep {action : DeviceAction} {entry : Entry}
    (stepped : deviceStep device action = some next) (member : entry ∈ next.fStateQueue) :
    entry ∈ device.fStateQueue ∨ entry.requests = device.requests := by
  rcases deviceStep_cases stepped with ⟨_, _, rfl⟩ | ⟨_, rfl⟩ | ⟨oldest, rest, _, rfl⟩
  · exact .inl member
  · exact .inl member
  · rcases List.mem_append.mp member with old | new
    · exact .inl old
    · rw [List.mem_singleton.mp new]
      exact .inr rfl

/-- Pushing changes neither the state nor what is still to be read. -/
theorem unread_push {oldest : DeviceState} {rest : List DeviceState}
    (oldestFirst : device.entered = oldest :: rest) :
    unread { device with
        entered := rest
        fStateQueue := device.fStateQueue ++ [⟨oldest, device.requests⟩] } = device.unread := by
  simp [unread, oldestFirst]

/-- The unread states after the next entry is taken. -/
theorem unread_dropNext {entry : Entry} {rest : List Entry}
    (queue : device.fStateQueue = entry :: rest) :
    device.unread = entry.state :: device.dropNext.unread := by
  simp [unread, dropNext, queue]

/-- An accepted request enters the state of the transition. -/
theorem changeDeviceState_of_after {transition : DeviceStateTransition} {state : DeviceState}
    (accepted : device.state.after transition = some state) :
    (device.changeDeviceState transition).state = state ∧
      (device.changeDeviceState transition).unread = device.unread ++ [state] ∧
      (device.changeDeviceState transition).fStateQueue = device.fStateQueue ∧
      (device.changeDeviceState transition).requests = device.requests + 1 := by
  simp [changeDeviceState, accepted, unread, enter]

@[simp]
theorem fStateQueue_changeDeviceState (device : Device) (transition : DeviceStateTransition) :
    (device.changeDeviceState transition).fStateQueue = device.fStateQueue := by
  cases after : device.state.after transition <;> simp [changeDeviceState, after, enter]

/-- The request that last made the device run is one of those counted. -/
theorem runRequest_changeDeviceState (device : Device) {transition : DeviceStateTransition}
    (numbers : device.runRequest ≤ device.requests) :
    (device.changeDeviceState transition).runRequest ≤
      (device.changeDeviceState transition).requests := by
  have grows : device.runRequest ≤ device.requests + 1 := Nat.le_succ_of_le numbers
  cases after : device.state.after transition with
  | none => simpa [changeDeviceState, after] using grows
  | some state =>
      simp only [changeDeviceState, after, requests_enter]
      split
      · exact Nat.le_refl _
      · exact grows

/-- A refused request changes nothing but the number of requests. -/
theorem changeDeviceState_of_refused {transition : DeviceStateTransition}
    (refused : device.state.after transition = none) :
    device.changeDeviceState transition = { device with requests := device.requests + 1 } := by
  simp [changeDeviceState, refused]

end Device

end NestDaq.Plugin
