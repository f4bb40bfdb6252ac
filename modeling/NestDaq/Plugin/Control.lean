import NestDaq.Plugin.State

/-!
# State commands

The commands of the state control thread: the expansion of a command into
single commands by the current state of the device, the transition that a
single command requests, and the wait loop after the request. Reading the
state, requesting the transition and taking an entry of `fStateQueue` are
separate steps, between which the device thread takes steps of its own.

At most one unread state is left over when no command waits: the initial
`Idle`, or the `Ready` of a run that finished by itself. Neither is the target
of a transition out of the same state, which is why no wait loop ends early.
-/

namespace NestDaq.Plugin

open NestDaq.Transition

namespace FairmqCommand

def bind : Text := "BIND".toList
def completeInit : Text := "COMPLETE INIT".toList
def connect : Text := "CONNECT".toList
def «end» : Text := "END".toList
def initDevice : Text := "INIT DEVICE".toList
def initTask : Text := "INIT TASK".toList
def resetDevice : Text := "RESET DEVICE".toList
def resetTask : Text := "RESET TASK".toList
def run : Text := "RUN".toList
def stop : Text := "STOP".toList

end FairmqCommand

namespace DaqCommand

def exit : Text := "exit".toList
def quit : Text := "quit".toList
def reset : Text := "reset".toList
def start : Text := "start".toList

end DaqCommand

/-- `ChangeDeviceStateByMultiCommand`: the single commands that a command
stands for in a state. -/
def changeDeviceStateByMultiCommand (state : DeviceState) (cmd : Text) : List Text :=
  let runs := cmd = FairmqCommand.run ∨ cmd = DaqCommand.start
  let resets := cmd = FairmqCommand.resetDevice ∨ cmd = DaqCommand.reset
  match state with
  | .idle =>
      if cmd = FairmqCommand.initDevice ∨ cmd = FairmqCommand.completeInit then
        [FairmqCommand.initDevice, FairmqCommand.completeInit]
      else if cmd = FairmqCommand.bind then
        [FairmqCommand.initDevice, FairmqCommand.completeInit, FairmqCommand.bind]
      else if cmd = FairmqCommand.connect then
        [FairmqCommand.initDevice, FairmqCommand.completeInit, FairmqCommand.bind,
          FairmqCommand.connect]
      else if cmd = FairmqCommand.initTask then
        [FairmqCommand.initDevice, FairmqCommand.completeInit, FairmqCommand.bind,
          FairmqCommand.connect, FairmqCommand.initTask]
      else if runs then
        [FairmqCommand.initDevice, FairmqCommand.completeInit, FairmqCommand.bind,
          FairmqCommand.connect, FairmqCommand.initTask, FairmqCommand.run]
      else []
  | .initializingDevice =>
      if cmd = FairmqCommand.completeInit then [FairmqCommand.completeInit]
      else if cmd = FairmqCommand.bind then [FairmqCommand.completeInit, FairmqCommand.bind]
      else if cmd = FairmqCommand.connect then
        [FairmqCommand.completeInit, FairmqCommand.bind, FairmqCommand.connect]
      else if cmd = FairmqCommand.initTask then
        [FairmqCommand.completeInit, FairmqCommand.bind, FairmqCommand.connect,
          FairmqCommand.initTask]
      else if runs then
        [FairmqCommand.completeInit, FairmqCommand.bind, FairmqCommand.connect,
          FairmqCommand.initTask, FairmqCommand.run]
      else []
  | .initialized =>
      if cmd = FairmqCommand.bind then [FairmqCommand.bind]
      else if cmd = FairmqCommand.connect then [FairmqCommand.bind, FairmqCommand.connect]
      else if cmd = FairmqCommand.initTask then
        [FairmqCommand.bind, FairmqCommand.connect, FairmqCommand.initTask]
      else if runs then
        [FairmqCommand.bind, FairmqCommand.connect, FairmqCommand.initTask, FairmqCommand.run]
      else if resets then [FairmqCommand.resetDevice]
      else []
  | .bound =>
      if cmd = FairmqCommand.connect then [FairmqCommand.connect]
      else if cmd = FairmqCommand.initTask then [FairmqCommand.connect, FairmqCommand.initTask]
      else if runs then [FairmqCommand.connect, FairmqCommand.initTask, FairmqCommand.run]
      else if resets then [FairmqCommand.resetDevice]
      else []
  | .deviceReady =>
      if cmd = FairmqCommand.initTask then [FairmqCommand.initTask]
      else if runs then [FairmqCommand.initTask, FairmqCommand.run]
      else if resets then [FairmqCommand.resetDevice]
      else []
  | .ready =>
      if runs then [FairmqCommand.run]
      else if cmd = FairmqCommand.resetTask then [FairmqCommand.resetTask]
      else if resets then [FairmqCommand.resetTask, FairmqCommand.resetDevice]
      else []
  | .running =>
      if cmd = FairmqCommand.stop then [FairmqCommand.stop]
      else if cmd = FairmqCommand.resetTask then [FairmqCommand.stop, FairmqCommand.resetTask]
      else if resets then
        [FairmqCommand.stop, FairmqCommand.resetTask, FairmqCommand.resetDevice]
      else []
  | _ => []

/-- What a branch of `ChangeDeviceStateBySingleCommand` does: whether it sets
`fResetDeviceRequested`, and the transition it requests together with the state
that its wait loop waits for. -/
structure Branch where
  resetDeviceRequested : Bool
  request : Option (DeviceStateTransition × DeviceState)
  deriving DecidableEq

namespace Branch

/-- The branch does nothing. -/
def nothing : Branch := ⟨false, none⟩

/-- The branch requests a transition and waits for a state. -/
def ask (transition : DeviceStateTransition) (target : DeviceState) : Branch :=
  ⟨false, some (transition, target)⟩

/-- The branch of `ResetDevice`, which also tells the wait loops to stop. -/
def reset : Branch :=
  ⟨true, some (.resetDevice, .idle)⟩

end Branch

/-- `ChangeDeviceStateBySingleCommand`, by the state it reads. -/
def changeDeviceStateBySingleCommand (state : DeviceState) (cmd : Text) : Branch :=
  match state with
  | .idle =>
      if cmd = FairmqCommand.initDevice then .ask .initDevice .initializingDevice else .nothing
  | .initializingDevice =>
      if cmd = FairmqCommand.completeInit then .ask .completeInit .initialized else .nothing
  | .initialized =>
      if cmd = FairmqCommand.bind then .ask .bind .bound
      else if cmd = FairmqCommand.resetDevice then .reset
      else .nothing
  | .bound =>
      if cmd = FairmqCommand.connect then .ask .connect .deviceReady
      else if cmd = FairmqCommand.resetDevice then .reset
      else .nothing
  | .connecting =>
      if cmd = FairmqCommand.resetDevice then ⟨true, none⟩ else .nothing
  | .deviceReady =>
      if cmd = FairmqCommand.initTask then .ask .initTask .ready
      else if cmd = FairmqCommand.resetDevice then .reset
      else .nothing
  | .ready =>
      if cmd = FairmqCommand.run then .ask .run .running
      else if cmd = FairmqCommand.resetTask then .ask .resetTask .deviceReady
      else .nothing
  | .running =>
      if cmd = FairmqCommand.stop then .ask .stop .ready else .nothing
  | _ => .nothing

/-- A wait loop: the transition requested before it, the state it waits for,
the number of the request, and whether the device accepted it. -/
structure Wait where
  transition : DeviceStateTransition
  target : DeviceState
  request : Nat
  accepted : Bool
  deriving DecidableEq, Repr

/-- Where the control thread is, with the single commands still to run. -/
inductive Control
  | commands (rest : List Text)
  | requesting (transition : DeviceStateTransition) (target : DeviceState) (rest : List Text)
  | waiting (wait : Wait) (rest : List Text)
  deriving DecidableEq

/-- The control thread, the device and the flag they share. -/
structure Session where
  control : Control
  device : Device
  fResetDeviceRequested : Bool
  deriving DecidableEq

inductive Action
  /-- A command string is given to `ChangeDeviceStateByMultiCommand`, which reads the state. -/
  | command (cmd : Text)
  /-- The next single command reads the state. -/
  | readState
  /-- `ChangeDeviceState`. -/
  | request
  /-- `WaitForNext` returns an entry to the wait loop. -/
  | waitForNext
  | device (action : DeviceAction)
  deriving DecidableEq

/-- The step pushes `Idle`, and the callback clears `fResetDeviceRequested`. -/
def pushesIdle (device : Device) (action : DeviceAction) : Bool :=
  action = .push && device.entered.head? = some .idle

/-- One step of either thread. -/
def step : Step Session Action
  | session, .command cmd =>
      match session.control with
      | .commands [] =>
          some { session with
            control := .commands (changeDeviceStateByMultiCommand session.device.state cmd) }
      | _ => none
  | session, .readState =>
      match session.control with
      | .commands (cmd :: rest) =>
          let branch := changeDeviceStateBySingleCommand session.device.state cmd
          some { session with
            control :=
              match branch.request with
              | none => .commands rest
              | some (transition, target) => .requesting transition target rest
            fResetDeviceRequested :=
              session.fResetDeviceRequested || branch.resetDeviceRequested }
      | _ => none
  | session, .request =>
      match session.control with
      | .requesting transition target rest =>
          some { session with
            control := .waiting
              { transition, target
                request := session.device.requests + 1
                accepted := (session.device.state.after transition).isSome } rest
            device := session.device.changeDeviceState transition }
      | _ => none
  | session, .waitForNext =>
      match session.control, session.device.fStateQueue with
      | .waiting wait rest, entry :: _ =>
          some { session with
            control := if entry.state = wait.target then .commands rest else .waiting wait rest
            device := session.device.dropNext }
      | _, _ => none
  | session, .device action =>
      (deviceStep session.device action).map fun device =>
        { session with
          device
          fResetDeviceRequested :=
            session.fResetDeviceRequested && !pushesIdle session.device action }

end NestDaq.Plugin
