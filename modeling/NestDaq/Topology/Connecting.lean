import NestDaq.Plugin.State
import NestDaq.Topology.Cycle
import NestDaq.Transition.Network

/-!
# Instances that connect

Several instances handle `CONNECT` at the same time. Each enters the states from
`InitializingDevice` to `DeviceReady` in turn, writes each of them to the registry
before it does anything else, and runs `OnDeviceStateChange` for two of them: the
one for `Bound` waits for the channels of the bind peers and, later, for the
states of the connect peers. The commands of a pipeline and the reads of a wait
loop take effect one by one, between those of the other instances.
-/

namespace NestDaq.Topology

open NestDaq.Plugin
open NestDaq.Registry
open NestDaq.Store
open NestDaq.Transition
open TopologyConfig

/-- `WaitDeviceReadyTargets`. -/
def waitDeviceReadyTargets : List Text :=
  [DeviceState.deviceReady.name, DeviceState.ready.name, DeviceState.running.name]

/-- All states are the same one of the targets. -/
def statesDone (states : List Text) : Bool :=
  waitDeviceReadyTargets.any fun target => states.all (· == target)

namespace TopologyConfig

variable (config : TopologyConfig) (db : Db)

/-- `fFairMQStateKey`. -/
def stateKey : Text :=
  config.key [config.fTopPrefix, config.fServiceName, config.fId, fairMQStatePrefix]

/-- The keys of the services at the far ends of the bind channels that wait for the
connection of their peers. -/
def peerServiceKeys : List Text :=
  ((ordered config.fBindChannels).filter fun channel => channel.2.waitForPeerConnection).flatMap
    fun channel => (ordered config.fLinks).filterMap fun link =>
      let lp := link.2
      if config.fServiceName = lp.myService ∧ channel.2.name = lp.myChannel then
        some (config.key [config.fTopPrefix, lp.peerService, ['*']])
      else if config.fServiceName = lp.peerService ∧ channel.2.name = lp.peerChannel then
        some (config.key [config.fTopPrefix, lp.myService, ['*']])
      else none

/-- The state keys below a service key. -/
def stateKeys (service : Text) : List Text :=
  scan db (config.key [service, fairMQStatePrefix])

/-- A round of `WaitForPeerConnection` on this registry ends the wait. -/
def peersConnected : Bool :=
  let found := config.peerServiceKeys.flatMap (config.stateKeys db)
  found.isEmpty || statesDone (found.filterMap (get db))

end TopologyConfig

/-- How far an instance is: the state that it has entered and written last, or what
is left of the callback for this state. -/
inductive Stage where
  | idle
  | initializingDevice
  /-- Commands of `Initialize`. -/
  | publishing (commands : List Command)
  | initialized
  | binding
  | bound
  /-- Commands of `WriteBindAddress`. -/
  | marking (commands : List Command)
  /-- Channels of `WaitBindAddress`. -/
  | waitingBind (channels : List Text)
  | resolved
  /-- Commands of `WriteConnectAddress`. -/
  | announcing (commands : List Command)
  /-- A round of `WaitForPeerConnection`: the service keys to scan and the state keys
  found. -/
  | waitingPeers (services found : List Text)
  /-- The callback for `Bound` has returned. -/
  | left
  | connecting
  | deviceReady

namespace Stage

/-- The state of the device. -/
def deviceState : Stage → DeviceState
  | idle => .idle
  | initializingDevice | publishing _ => .initializingDevice
  | initialized => .initialized
  | binding => .binding
  | bound | marking _ | waitingBind _ | resolved | announcing _ | waitingPeers _ _ | left => .bound
  | connecting => .connecting
  | deviceReady => .deviceReady

/-- The commands that are still to be executed. -/
def commands : Stage → List Command
  | publishing commands | marking commands | announcing commands => commands
  | _ => []

/-- What is left: the stages to come, and the items of this one. -/
def rest : Stage → ℕ ×ₗ ℕ
  | idle => toLex (13, 0)
  | initializingDevice => toLex (12, 0)
  | publishing commands => toLex (11, commands.length)
  | initialized => toLex (10, 0)
  | binding => toLex (9, 0)
  | bound => toLex (8, 0)
  | marking commands => toLex (7, commands.length)
  | waitingBind channels => toLex (6, channels.length)
  | resolved => toLex (5, 0)
  | announcing commands => toLex (4, commands.length)
  | waitingPeers _ _ => toLex (3, 0)
  | left => toLex (2, 0)
  | connecting => toLex (1, 0)
  | deviceReady => toLex (0, 0)

end Stage

/-- An instance that handles `CONNECT`. -/
structure Connector where
  config : TopologyConfig
  stage : Stage := .idle

/-- What happens next in an instance. The properties of the device are given with
the action, and so is how resolving the addresses ends: it writes nothing and tries
a bounded number of times. -/
inductive ConnectAction where
  | proceed
  | writeAddress (properties : Properties)
  | resolve (channels : MQChannel) (thrown : Bool)
  /-- The timer of `ResetTtl`. -/
  | refresh

namespace Connector

variable (order : List Text → List Text) (db : Db) (inst : Connector)

/-- Write a state to the registry. -/
def writeState (state : DeviceState) : Db :=
  set db inst.config.stateKey state.name

/-- Enter the state of a stage. -/
def enter (stage : Stage) : Db × Connector :=
  (inst.writeState db stage.deviceState, { inst with stage := stage })

/-- Go on to a stage without a write. -/
def goOn (stage : Stage) : Db × Connector :=
  (db, { inst with stage := stage })

/-- The next step of the thread that handles `CONNECT`. -/
def proceed : Option (Db × Connector) :=
  match inst.stage with
  | .idle => some (inst.enter db .initializingDevice)
  | .initializingDevice =>
      let (config, configured) := inst.config.initializeTopology db
      let commands := (configured.getD []).flatMap fun record =>
        inst.config.writeChannel record.sp record.peers
      some (db, ⟨config, .publishing commands⟩)
  | .publishing (command :: rest) =>
      some (command.exec db, { inst with stage := .publishing rest })
  | .publishing [] => some (inst.enter db .initialized)
  | .initialized => some (inst.enter db .binding)
  | .binding => some (inst.enter db .bound)
  | .marking (command :: rest) =>
      some (command.exec db, { inst with stage := .marking rest })
  | .marking [] => some (inst.goOn db (.waitingBind (order (inst.config.waitedChannels db))))
  | .waitingBind (channel :: rest) =>
      if isBound db channel then some (inst.goOn db (.waitingBind rest)) else some (db, inst)
  | .announcing (command :: rest) =>
      some (command.exec db, { inst with stage := .announcing rest })
  | .announcing [] => some (inst.goOn db (.waitingPeers (order inst.config.peerServiceKeys) []))
  | .waitingPeers (service :: rest) found =>
      some (inst.goOn db (.waitingPeers rest (found ++ inst.config.stateKeys db service)))
  | .waitingPeers [] found =>
      if found.isEmpty || statesDone (found.filterMap (get db)) then some (inst.goOn db .left)
      else some (inst.goOn db (.waitingPeers (order inst.config.peerServiceKeys) []))
  | .left => some (inst.enter db .connecting)
  | .connecting => some (inst.enter db .deviceReady)
  | _ => none

/-- One step of one instance. -/
def step : LocalStep Db Connector ConnectAction
  | (db, inst), .proceed => inst.proceed order db
  | (db, inst), .writeAddress properties =>
      match inst.stage with
      | .bound => some (inst.goOn db (.marking (inst.config.writeBindAddress properties)))
      | .resolved => some (inst.goOn db (.announcing (inst.config.writeConnectAddress properties)))
      | _ => none
  | (db, inst), .resolve channels thrown =>
      match inst.stage with
      | .waitingBind [] =>
          some (db, ⟨{ inst.config with fConnectChannels := channels },
            if thrown then .left else .resolved⟩)
      | _ => none
  | (db, inst), .refresh => some (inst.writeState db inst.stage.deviceState, inst)

/-- The exit condition of the wait loop that the instance is in does not hold. -/
def held : Bool :=
  match inst.stage with
  | .waitingBind (channel :: _) => !isBound db channel
  | .waitingPeers _ _ => !inst.config.peersConnected db
  | _ => false

/-- The instance has not reached `DeviceReady`. -/
def Unfinished : Prop :=
  inst.stage ≠ .deviceReady

/-- `WriteBindAddress` has queued its commands. -/
def bindWritten : Bool :=
  match inst.stage with
  | .idle | .initializingDevice | .publishing _ | .initialized | .binding | .bound => false
  | _ => true

variable {order db inst} {action : ConnectAction} {result : Db × Connector}

/-- A step writes a state of the instance, executes its next command, or writes nothing. -/
theorem step_shared (stepped : step order (db, inst) action = some result) :
    result.1 = db ∨ (∃ state, result.1 = inst.writeState db state) ∨
      ∃ command ∈ inst.stage.commands, result.1 = command.exec db := by
  rcases inst with ⟨config, stage⟩
  cases action with
  | refresh =>
      cases stepped
      exact Or.inr (Or.inl ⟨_, rfl⟩)
  | writeAddress properties =>
      cases stage <;> cases stepped <;> exact Or.inl rfl
  | resolve channels thrown =>
      cases stage with
      | waitingBind remaining =>
          cases remaining <;> cases stepped
          exact Or.inl rfl
      | _ => cases stepped
  | proceed =>
      cases stage with
      | idle | initialized | binding | left | connecting =>
          cases stepped
          exact Or.inr (Or.inl ⟨_, rfl⟩)
      | publishing commands | marking commands | announcing commands =>
          cases commands with
          | nil =>
              cases stepped
              first | exact Or.inl rfl | exact Or.inr (Or.inl ⟨_, rfl⟩)
          | cons command rest =>
              cases stepped
              exact Or.inr (Or.inr ⟨command, List.mem_cons_self, rfl⟩)
      | initializingDevice =>
          cases stepped
          exact Or.inl rfl
      | waitingBind channels =>
          cases channels with
          | nil => cases stepped
          | cons channel rest =>
              simp only [step, proceed] at stepped
              split at stepped <;> cases stepped <;> exact Or.inl rfl
      | waitingPeers services found =>
          cases services with
          | nil =>
              simp only [step, proceed] at stepped
              split at stepped <;> cases stepped <;> exact Or.inl rfl
          | cons service rest =>
              cases stepped
              exact Or.inl rfl
      | bound | resolved | deviceReady => cases stepped

end Connector

/-- The instances before `CONNECT`. -/
def beforeConnect {ι : Type} (instances : ι → TopologyConfig) (db : Db) :
    Network ι Db Connector :=
  ⟨db, fun i => ⟨instances i, .idle⟩⟩

end NestDaq.Topology
