import NestDaq.Topology.Assembly
import NestDaq.Topology.Bound

/-!
# The place of a connecting instance

What an instance knows, has queued and has left in the registry at each stage of
`CONNECT`, and that its own steps keep it.
-/

namespace NestDaq.Topology

open NestDaq.Plugin
open NestDaq.Registry
open NestDaq.Store
open NestDaq.Transition
open TopologyConfig

variable {ι : Type} {links : List LinkKey} {instances : ι → TopologyConfig} {db later : Db}
  {config : TopologyConfig} {order : List Text → List Text}

/-- A command for a sub-socket of the instance. -/
def IsSocketCommand (config : TopologyConfig) (command : Command) : Prop :=
  ∃ channel index, command.key = instanceSocketKey config.fServiceName config.fId channel index

/-- The command that marks a channel of the instance as bound. -/
def markCommand (config : TopologyConfig) (channel : Text) : Command :=
  .hset (instanceChannelKey config.fServiceName config.fId channel) [(Field.text .bound, ['1'])]

theorem markBound_eq (standard : config.Standard) (channel : Text) :
    config.markBound channel = [markCommand config channel] := by
  rw [markBound, channelKey_eq standard, markCommand]

theorem mem_writeAddress (standard : config.Standard) {properties : Properties}
    {channels : MQChannel} {f : Text → List Command} {command : Command}
    (written : command ∈ config.writeAddress properties channels f) :
    IsSocketCommand config command ∨ ∃ name ∈ channels, command ∈ f name := by
  rcases List.mem_flatMap.mp written with ⟨entry, member, written⟩
  rcases List.mem_append.mp written with inSockets | inMarks
  · rcases List.mem_flatMap.mp inSockets with ⟨index, -, written⟩
    exact Or.inl ⟨entry.2.name, index, key_of_mem_writeSubSocket standard written⟩
  · right
    refine ⟨entry.1, ?_, inMarks⟩
    exact AList.lookup_isSome.mp (Option.isSome_iff_exists.mpr ⟨entry.2, mem_ordered.mp member⟩)

theorem markCommand_mem_writeBindAddress (standard : config.Standard) (properties : Properties)
    {name : Text} (member : name ∈ config.fBindChannels) :
    markCommand config name ∈ config.writeBindAddress properties := by
  rcases Option.isSome_iff_exists.mp (AList.lookup_isSome.mpr member) with ⟨sp, found⟩
  apply List.mem_flatMap.mpr
  refine ⟨(name, sp), mem_ordered.mpr found, ?_⟩
  rw [markBound_eq standard]
  exact List.mem_append_right _ List.mem_cons_self

theorem isBound_exec_markCommand (config : TopologyConfig) (db : Db) (channel : Text) :
    isBound ((markCommand config channel).exec db)
      (instanceChannelKey config.fServiceName config.fId channel) = true := by
  have written : hget ((markCommand config channel).exec db)
      (instanceChannelKey config.fServiceName config.fId channel) (Field.text .bound) =
        some ['1'] := by
    rw [markCommand, Command.exec, hget_hset]
    exact AList.lookup_insert _
  rw [isBound, written]
  decide

theorem isBound_congr {first second : Db} {key : Text}
    (same : first.lookup key = second.lookup key) : isBound first key = isBound second key := by
  rw [isBound, isBound, hget_congr same]

/-- A command of a pipeline leaves no string behind. -/
theorem get_exec {command : Command} {key : Text} (isSome : (get (command.exec db) key).isSome) :
    (get db key).isSome := by
  by_cases same : key = command.key
  · subst same
    cases command with
    | hset key fields => simp [Command.exec, Command.key, Store.get, hset] at isSome
    | rpush key items => simp [Command.exec, Command.key, Store.get, rpush] at isSome
    | expire key => exact isSome
  · rw [get_congr (command.lookup_exec_of_ne db same)] at isSome
    exact isSome

/-! ## The place of an instance -/

/-- A channel that `WaitBindAddress` may wait for. -/
def Awaited (instances : ι → TopologyConfig) (db : Db) (key : Text) : Prop :=
  ∃ j channel base, key = instanceChannelKey (instances j).fServiceName (instances j).fId channel ∧
    DeclaresEndpoint db (instances j).fServiceName channel base ∧ base.method = "bind".toList

/-- What an instance knows and has queued at its stage. -/
def Placed (links : List LinkKey) (instances : ι → TopologyConfig) (db : Db)
    (config : TopologyConfig) (inst : Connector) : Prop :=
  match inst.stage with
  | .idle | .initializingDevice => inst.config = config
  | .publishing commands =>
      (Described links db config inst.config ∧ Connects db config inst.config) ∧
        ∀ command ∈ commands, Region config command.key
  | .initialized | .binding | .bound =>
      Described links db config inst.config ∧ Connects db config inst.config
  | .marking commands =>
      (Described links db config inst.config ∧ Connects db config inst.config) ∧
        ∀ command ∈ commands, IsSocketCommand config command ∨
          ∃ channel, ChannelName channel ∧ command = markCommand config channel
  | .waitingBind channels =>
      Described links db config inst.config ∧ ∀ key ∈ channels, Awaited instances db key
  | .announcing commands =>
      Described links db config inst.config ∧ ∀ command ∈ commands, IsSocketCommand config command
  | .resolved | .waitingPeers _ _ | .left | .connecting | .deviceReady =>
      Described links db config inst.config

/-- The bind channels are marked once `WriteBindAddress` has been executed. -/
def MarksChannels (config : TopologyConfig) (later : Db) (inst : Connector) : Prop :=
  inst.bindWritten = true → ∀ name ∈ inst.config.fBindChannels,
    isBound later (instanceChannelKey config.fServiceName config.fId name) = true ∨
      markCommand config name ∈ inst.stage.commands

/-- An instance that has reached `DeviceReady` shows it. -/
def ShowsReady (config : TopologyConfig) (later : Db) (inst : Connector) : Prop :=
  inst.stage = .deviceReady → get later config.stateKey = some DeviceState.deviceReady.name

/-- The registry while the instances connect. -/
structure Observed (instances : ι → TopologyConfig) (db later : Db) : Prop where
  untouched : Untouched instances db later
  strings : ∀ key, (get later key).isSome → (∃ i, key = (instances i).stateKey) ∨
    (get db key).isSome

namespace Described

variable {current : TopologyConfig} (described : Described links db config current)

include described

theorem sameService : current.fServiceName = config.fServiceName := by
  rcases described.identity with ⟨bind, connect, fLinks, keys, rfl⟩
  rfl

theorem sameId : current.fId = config.fId := by
  rcases described.identity with ⟨bind, connect, fLinks, keys, rfl⟩
  rfl

theorem standard (standard : config.Standard) : current.Standard := by
  rcases described.identity with ⟨bind, connect, fLinks, keys, rfl⟩
  exact ⟨standard.top, standard.separator⟩

theorem stateKey_eq : current.stateKey = config.stateKey := by
  rcases described.identity with ⟨bind, connect, fLinks, keys, rfl⟩
  rfl

theorem resolve (channels : MQChannel) :
    Described links db config { current with fConnectChannels := channels } := by
  constructor
  · rcases described.identity with ⟨bind, connect, fLinks, keys, rfl⟩
    exact ⟨bind, channels, fLinks, keys, rfl⟩
  · exact described.bind
  · exact described.complete
  · exact described.recorded

end Described

namespace Placed

variable {inst : Connector}

theorem stateKey_eq (placed : Placed links instances db config inst) :
    inst.config.stateKey = config.stateKey := by
  rcases inst with ⟨current, stage⟩
  cases stage with
  | idle | initializingDevice => exact congrArg stateKey placed
  | initialized | binding | bound => exact placed.1.stateKey_eq
  | publishing | marking => exact placed.1.1.stateKey_eq
  | waitingBind | announcing => exact placed.1.stateKey_eq
  | _ => exact Described.stateKey_eq placed

theorem described (placed : Placed links instances db config inst)
    (written : inst.bindWritten = true) : Described links db config inst.config := by
  rcases inst with ⟨current, stage⟩
  cases stage with
  | idle | initializingDevice | publishing | initialized | binding | bound => cases written
  | marking => exact placed.1.1
  | waitingBind | announcing => exact placed.1
  | _ => exact placed

/-- The commands in the queue write below the key of the instance. -/
theorem region (placed : Placed links instances db config inst) {command : Command}
    (member : command ∈ inst.stage.commands) : Region config command.key := by
  rcases inst with ⟨current, stage⟩
  cases stage with
  | publishing commands => exact placed.2 command member
  | marking commands =>
      rcases placed.2 command member with ⟨channel, index, same⟩ | ⟨channel, name, rfl⟩
      · rw [same]
        exact region_instanceSocketKey channel index
      · exact region_instanceChannelKey name
  | announcing commands =>
      rcases placed.2 command member with ⟨channel, index, same⟩
      rw [same]
      exact region_instanceSocketKey channel index
  | _ => cases member

end Placed

/-! ## What a step keeps -/

section Step

variable {i : ι} {inst : Connector} {action : ConnectAction} {result : Db × Connector}

/-- A step changes no key outside the region of its instance. -/
theorem lookup_step (standard : config.Standard) (placed : Placed links instances db config inst)
    (stepped : Connector.step order (later, inst) action = some result) {key : Text}
    (outside : ¬ Region config key) : result.1.lookup key = later.lookup key := by
  rcases Connector.step_shared stepped with same | ⟨state, same⟩ | ⟨command, member, same⟩
  · rw [same]
  · rw [same, Connector.writeState, placed.stateKey_eq]
    apply lookup_set_of_ne
    rintro rfl
    exact outside (region_stateKey standard)
  · rw [same]
    apply command.lookup_exec_of_ne
    rintro rfl
    exact outside (placed.region member)

theorem Observed.step (assembly : Assembly links instances db)
    (observed : Observed instances db later) (placed : Placed links instances db (instances i) inst)
    (stepped : Connector.step order (later, inst) action = some result) :
    Observed instances db result.1 := by
  constructor
  · intro key outside
    rw [lookup_step (assembly.standard i) placed stepped (outside i)]
    exact observed.untouched key outside
  · intro key isSome
    rcases Connector.step_shared stepped with same | ⟨state, same⟩ | ⟨command, -, same⟩
    · rw [same] at isSome
      exact observed.strings key isSome
    · by_cases isState : key = (instances i).stateKey
      · exact Or.inl ⟨i, isState⟩
      · rw [same, Connector.writeState, placed.stateKey_eq,
          get_congr (lookup_set_of_ne later isState _)] at isSome
        exact observed.strings key isSome
    · rw [same] at isSome
      exact observed.strings key (get_exec isSome)

/-- The channel keys of an instance are not its state key. -/
theorem instanceChannelKey_ne_stateKey (standard : config.Standard) (channel : Text) :
    instanceChannelKey config.fServiceName config.fId channel ≠ config.stateKey := by
  intro same
  have parts : channelPrefix ++ ':' :: channel = fairMQStatePrefix := by
    simpa [instanceChannelKey_eq, stateKey, key, standard.top, standard.separator, colon] using same
  exact absurd (parts ▸ List.mem_append_right _ List.mem_cons_self : ':' ∈ fairMQStatePrefix)
    (by decide)

/-- What follows `WriteBindAddress` leaves a mark. -/
theorem isBound_exec {name : Text} {command : Command}
    (isKnown : IsSocketCommand config command ∨
      ∃ channel, ChannelName channel ∧ command = markCommand config channel)
    (marked : isBound later (instanceChannelKey config.fServiceName config.fId name) = true) :
    isBound (command.exec later) (instanceChannelKey config.fServiceName config.fId name) =
      true := by
  by_cases same : instanceChannelKey config.fServiceName config.fId name = command.key
  · rcases isKnown with ⟨channel, index, isSocket⟩ | ⟨channel, -, rfl⟩
    · have inChannels := area_prefix_instanceChannelKey config.fServiceName config.fId name
      rw [same, isSocket] at inChannels
      exact absurd (area_prefix_instanceSocketKey _ _ _ _) (not_area_socket inChannels)
    · cases instanceChannelKey_right_injective _ _ same
      exact isBound_exec_markCommand config later name
  · rw [isBound_congr (command.lookup_exec_of_ne later same)]
    exact marked

/-- The mark of a channel stays, or stays in the queue, when the next command is
executed. -/
theorem marked_or_mem_rest {name : Text} {command : Command} {rest : List Command}
    (isKnown : IsSocketCommand config command ∨
      ∃ channel, ChannelName channel ∧ command = markCommand config channel)
    (marked : isBound later (instanceChannelKey config.fServiceName config.fId name) = true ∨
      markCommand config name ∈ command :: rest) :
    isBound (command.exec later) (instanceChannelKey config.fServiceName config.fId name) = true ∨
      markCommand config name ∈ rest := by
  rcases marked with marked | member
  · exact Or.inl (isBound_exec isKnown marked)
  · rcases List.mem_cons.mp member with rfl | inRest
    · exact Or.inl (isBound_exec_markCommand config later name)
    · exact Or.inr inRest

theorem awaited_of_mem_waitedChannels (assembly : Assembly links instances db)
    (observed : Observed instances db later) {current : TopologyConfig}
    (described : Described links db (instances i) current)
    (connects : Connects db (instances i) current) {key : Text}
    (member : key ∈ current.waitedChannels later) : Awaited instances db key := by
  rcases List.mem_flatMap.mp member with ⟨channel, inChannels, member⟩
  rcases List.mem_flatMap.mp member with ⟨entry, inLinks, member⟩
  rcases (assembly.separate i).near described.recorded (mem_ordered.mp inLinks) with
    ⟨my, other, -, wellFormed, link, inDeclared, joins⟩
  have standard := described.standard (assembly.standard i)
  rcases connects channel.1 channel.2 (mem_ordered.mp inChannels) with ⟨sameName, notBind⟩
  simp only [described.sameService, my, true_and] at member
  split at member
  · rename_i sameChannel
    rcases List.mem_map.mp member with ⟨presence, isPresence, rfl⟩
    rcases (mem_presenceKeys standard wellFormed.plainR).mp isPresence with
      ⟨instanceId, rfl, stored⟩
    rcases assembly.endpoints.ends inDeclared joins with
      ⟨nearBase, farBase, nearDeclares, farDeclares, isBind⟩
    have isEnd : IsEnd links entry.2.peerService := by
      rcases joins with ⟨-, far⟩ | ⟨-, far⟩
      · exact ⟨link, inDeclared, Or.inr (congrArg Prod.fst far).symm⟩
      · exact ⟨link, inDeclared, Or.inl (congrArg Prod.fst far).symm⟩
    rcases (assembly.present _ isEnd _).mp
      ((observed.untouched.mem_presenceKey _ _).mp stored) with ⟨j, service, sameId⟩
    refine ⟨j, entry.2.peerChannel, farBase, ?_, ?_, ?_⟩
    · rw [peerKey_presenceKey standard, service, sameId]
      rfl
    · rw [service]
      exact farDeclares
    · apply isBind.resolve_left
      apply notBind
      rw [← sameName, sameChannel]
      exact nearDeclares
  · rename_i differs
    rw [if_neg fun same => other same.1.symm] at member
    cases member

theorem Placed.step (assembly : Assembly links instances db)
    (perm : ∀ keys, (order keys).Perm keys.dedup) (observed : Observed instances db later)
    (placed : Placed links instances db (instances i) inst)
    (stepped : Connector.step order (later, inst) action = some result) :
    Placed links instances db (instances i) result.2 := by
  rcases inst with ⟨current, stage⟩
  have standard := assembly.standard i
  cases action with
  | refresh =>
      cases stepped
      exact placed
  | writeAddress properties =>
      cases stage with
      | bound =>
          cases stepped
          have sockets {command : Command}
              (written : command ∈ current.writeBindAddress properties) :
              IsSocketCommand (instances i) command ∨ ∃ channel, ChannelName channel ∧
                command = markCommand (instances i) channel := by
            rcases mem_writeAddress (placed.1.standard standard) written with
              ⟨channel, index, same⟩ | ⟨name, member, isMark⟩
            · rw [placed.1.sameService, placed.1.sameId] at same
              exact Or.inl ⟨channel, index, same⟩
            · rw [markBound_eq (placed.1.standard standard), List.mem_singleton, markCommand,
                placed.1.sameService, placed.1.sameId] at isMark
              rcases Option.isSome_iff_exists.mp (AList.lookup_isSome.mpr member) with ⟨sp, found⟩
              rcases placed.1.bind name sp found with ⟨-, base, declares, -⟩
              exact Or.inr ⟨name, assembly.channelName i declares.stored, isMark⟩
          exact ⟨placed, fun command written => sockets written⟩
      | resolved =>
          cases stepped
          apply And.intro placed
          intro command written
          rcases mem_writeAddress (placed.standard standard) written with
            ⟨channel, index, same⟩ | ⟨name, -, none⟩
          · rw [placed.sameService, placed.sameId] at same
            exact ⟨channel, index, same⟩
          · cases none
      | _ => cases stepped
  | resolve channels thrown =>
      cases stage with
      | waitingBind remaining =>
          cases remaining <;> cases stepped
          cases thrown <;> exact placed.1.resolve channels
      | _ => cases stepped
  | proceed =>
      cases stage with
      | idle =>
          cases stepped
          exact placed
      | initializingDevice =>
          have isFirst : current = instances i := placed
          subst isFirst
          rcases assembly.exists_initializeTopology observed.untouched i with
            ⟨current, configured, initialized, described, connects, regions⟩
          simp only [Connector.step, Connector.proceed, initialized, Option.getD_some,
            Option.some.injEq] at stepped
          rw [← stepped]
          apply And.intro ⟨described, connects⟩
          intro command written
          rcases List.mem_flatMap.mp written with ⟨record, member, written⟩
          exact regions record member command written
      | publishing commands =>
          cases commands with
          | nil =>
              cases stepped
              exact placed.1
          | cons command rest =>
              cases stepped
              exact ⟨placed.1, fun other member => placed.2 other (List.mem_cons_of_mem _ member)⟩
      | initialized | binding =>
          cases stepped
          exact placed
      | marking commands =>
          cases commands with
          | nil =>
              cases stepped
              apply And.intro placed.1.1
              intro key member
              have waited := List.mem_dedup.mp ((perm _).mem_iff.mp member)
              exact awaited_of_mem_waitedChannels assembly observed placed.1.1 placed.1.2 waited
          | cons command rest =>
              cases stepped
              exact ⟨placed.1, fun other member => placed.2 other (List.mem_cons_of_mem _ member)⟩
      | waitingBind channels =>
          cases channels with
          | nil => cases stepped
          | cons channel rest =>
              simp only [Connector.step, Connector.proceed] at stepped
              split at stepped
              · cases stepped
                exact ⟨placed.1, fun key member => placed.2 key (List.mem_cons_of_mem _ member)⟩
              · cases stepped
                exact placed
      | announcing commands =>
          cases commands with
          | nil =>
              cases stepped
              exact placed.1
          | cons command rest =>
              cases stepped
              exact ⟨placed.1, fun other member => placed.2 other (List.mem_cons_of_mem _ member)⟩
      | waitingPeers services found =>
          cases services with
          | nil =>
              simp only [Connector.step, Connector.proceed] at stepped
              split at stepped <;> cases stepped <;> exact placed
          | cons service rest =>
              cases stepped
              exact placed
      | left | connecting =>
          cases stepped
          exact placed
      | bound | resolved | deviceReady => cases stepped

theorem MarksChannels.step (standard : config.Standard)
    (placed : Placed links instances db config inst) (marks : MarksChannels config later inst)
    (stepped : Connector.step order (later, inst) action = some result) :
    MarksChannels config result.1 result.2 := by
  rcases inst with ⟨current, stage⟩
  have written (state : DeviceState) (name : Text) :
      isBound (Connector.writeState later ⟨current, stage⟩ state)
          (instanceChannelKey config.fServiceName config.fId name) =
        isBound later (instanceChannelKey config.fServiceName config.fId name) := by
    apply isBound_congr
    apply lookup_set_of_ne
    rw [placed.stateKey_eq]
    exact instanceChannelKey_ne_stateKey standard name
  cases action with
  | refresh =>
      cases stepped
      intro after name member
      rw [written]
      exact marks after name member
  | writeAddress properties =>
      cases stage with
      | bound =>
          cases stepped
          intro _ name member
          have mark := markCommand_mem_writeBindAddress (placed.1.standard standard) properties
            member
          rw [markCommand, placed.1.sameService, placed.1.sameId] at mark
          exact Or.inr mark
      | resolved =>
          cases stepped
          intro _ name member
          exact Or.inl ((marks rfl name member).resolve_right List.not_mem_nil)
      | _ => cases stepped
  | resolve channels thrown =>
      cases stage with
      | waitingBind remaining =>
          cases remaining <;> cases stepped
          intro _ name member
          exact Or.inl ((marks rfl name member).resolve_right List.not_mem_nil)
      | _ => cases stepped
  | proceed =>
      cases stage with
      | idle | initializingDevice | initialized | binding =>
          cases stepped
          intro after
          cases after
      | publishing commands =>
          cases commands <;> cases stepped <;> intro after <;> cases after
      | marking commands =>
          cases commands with
          | nil =>
              cases stepped
              exact fun _ name member => marks rfl name member
          | cons command rest =>
              cases stepped
              intro _ name member
              exact marked_or_mem_rest (placed.2 command List.mem_cons_self) (marks rfl name member)
      | waitingBind channels =>
          cases channels with
          | nil => cases stepped
          | cons channel rest =>
              simp only [Connector.step, Connector.proceed] at stepped
              split at stepped <;> cases stepped <;>
                exact fun _ name member => marks rfl name member
      | announcing commands =>
          cases commands with
          | nil =>
              cases stepped
              exact fun _ name member => marks rfl name member
          | cons command rest =>
              cases stepped
              intro _ name member
              exact marked_or_mem_rest (Or.inl (placed.2 command List.mem_cons_self))
                (marks rfl name member)
      | waitingPeers services found =>
          cases services with
          | nil =>
              simp only [Connector.step, Connector.proceed] at stepped
              split at stepped <;> cases stepped <;>
                exact fun _ name member => marks rfl name member
          | cons service rest =>
              cases stepped
              exact fun _ name member => marks rfl name member
      | left | connecting =>
          cases stepped
          intro _ name member
          rw [Connector.enter, written]
          exact marks rfl name member
      | bound | resolved | deviceReady => cases stepped

theorem ShowsReady.step (placed : Placed links instances db config inst)
    (stepped : Connector.step order (later, inst) action = some result) :
    ShowsReady config result.1 result.2 := by
  rcases inst with ⟨current, stage⟩
  intro ready
  cases action with
  | refresh =>
      cases stepped
      cases ready
      rw [Connector.writeState, placed.stateKey_eq]
      exact get_set _ _
  | writeAddress properties => cases stage <;> cases stepped <;> cases ready
  | resolve channels thrown =>
      cases stage with
      | waitingBind remaining =>
          cases remaining <;> cases stepped
          cases thrown <;> cases ready
      | _ => cases stepped
  | proceed =>
      cases stage with
      | connecting =>
          cases stepped
          rw [Connector.enter, Connector.writeState, placed.stateKey_eq]
          exact get_set _ _
      | publishing commands | marking commands | announcing commands =>
          cases commands <;> cases stepped <;> cases ready
      | waitingBind channels =>
          cases channels with
          | nil => cases stepped
          | cons channel rest =>
              simp only [Connector.step, Connector.proceed] at stepped
              split at stepped <;> cases stepped <;> cases ready
      | waitingPeers services found =>
          cases services with
          | nil =>
              simp only [Connector.step, Connector.proceed] at stepped
              split at stepped <;> cases stepped <;> cases ready
          | cons service rest => cases stepped; cases ready
      | _ => cases stepped <;> cases ready

end Step

end NestDaq.Topology
