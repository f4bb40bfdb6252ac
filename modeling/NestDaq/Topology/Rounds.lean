import NestDaq.Topology.Assembly
import NestDaq.Topology.RegisteredKeys

/-!
# Instances in cycles

Instances that handle `CONNECT` and `RESET DEVICE` over and over on one registry, each
at its own pace: what one of them does in a cycle, and what it keeps in the registry
from one cycle to the next. The keys it writes are those of its channels and
sub-sockets, and it has registered all of them but the marks of its channels.
-/

namespace NestDaq.Topology

open NestDaq.Registry
open NestDaq.Store
open NestDaq.Transition
open Instance
open TopologyConfig

variable {ι : Type} {links : List LinkKey} {instances : ι → TopologyConfig} {db later : Db}
  {config : TopologyConfig}

/-! ## One instance -/

/-- How far an instance is in its cycle. -/
inductive Phase where
  | idle
  | initialized
  | bindWritten
  | waited
  | resolved
  | deviceReady
  deriving DecidableEq

/-- `WriteBindAddress` has been called in the cycle. -/
def Phase.written : Phase → Bool
  | idle | initialized => false
  | _ => true

/-- An instance in one of its cycles, with the number of the cycles before, the
addresses it has written for its sub-sockets in this one, and the channels that
`ResolveConnectAddress` has resolved. -/
structure Party where
  config : TopologyConfig
  phase : Phase := .idle
  cycle : Nat := 0
  published : List (Text × Text) := []
  resolved : List SocketProperty := []

/-- What an instance does next. The properties are those that the transport layer
shows for its sub-sockets. -/
inductive CycleAction where
  | initializeTopology
  | writeBindAddress (properties : Properties)
  | waitBindAddress
  | resolveConnectAddress
  | writeConnectAddress (properties : Properties)
  | reset

/-- The addresses that a pipeline writes, with the keys it writes them to. -/
def writtenAddresses (commands : List Command) : List (Text × Text) :=
  commands.flatMap fun
    | .hset key fields =>
        (fields.filter fun field => field.1 = Field.text .address).map fun field => (key, field.2)
    | _ => []

/-- Every sub-socket that the transport layer shows for the channels has an address. -/
def ShowsAddresses (properties : Properties) (channels : MQChannel) : Prop :=
  ∀ channel ∈ ordered channels, ∀ index < subSocketCount properties channel.2.name,
    localKey channel.2.name index ++ ".address".toList ∈ properties

instance (properties : Properties) (channels : MQChannel) :
    Decidable (ShowsAddresses properties channels) :=
  inferInstanceAs (Decidable (∀ channel ∈ ordered channels, _))

namespace Party

variable (db : Db) (party : Party)

/-- `Initialize`. -/
def initializeTopology : Db × Party :=
  let (config, configured) := party.config.initializeTopology db
  (execAll db ((configured.getD []).flatMap fun record =>
      party.config.writeChannel record.sp record.peers),
    { party with config := config, phase := .initialized })

/-- The keys of the sub-sockets are registered. -/
def registerAddresses (properties : Properties) (channels : MQChannel) : TopologyConfig :=
  { party.config with
    fRegisteredKeys := party.config.fRegisteredKeys ++
      party.config.addressKeys properties channels }

/-- `WriteBindAddress`. -/
def writeBindAddress (properties : Properties) : Db × Party :=
  (execAll db (party.config.writeBindAddress properties),
    { party with
      config := party.registerAddresses properties party.config.fBindChannels
      phase := .bindWritten
      published := party.published ++
        writtenAddresses (party.config.writeBindAddress properties) })

/-- `WriteConnectAddress`, after which the device gets ready. -/
def writeConnectAddress (properties : Properties) : Db × Party :=
  (execAll db (party.config.writeConnectAddress properties),
    { party with
      config := party.registerAddresses properties party.config.fConnectChannels
      phase := .deviceReady
      published := party.published ++
        writtenAddresses (party.config.writeConnectAddress properties) })

/-- `Reset`. -/
def reset : Db × Party :=
  ((party.config.reset db).2, { config := (party.config.reset db).1, cycle := party.cycle + 1 })

/-- The operations in the order of the state machine, which a reset can end at any place.
`WaitBindAddress` returns when all its channels are bound. A number that does not parse
ends the callback with an exception, which is caught; the other faults of
`ResolveConnectAddress` end the process. -/
def step : LocalStep Db Party CycleAction
  | (db, party), action =>
      match action, party.phase with
      | .initializeTopology, .idle => some (party.initializeTopology db)
      | .writeBindAddress properties, .initialized =>
          if ShowsAddresses properties party.config.fBindChannels then
            some (party.writeBindAddress db properties)
          else none
      | .waitBindAddress, .bindWritten =>
          if party.config.waitBindAddress db then some (db, { party with phase := .waited })
          else none
      | .resolveConnectAddress, .waited =>
          match party.config.resolveConnectAddress db with
          | .ok resolved => some (db, { party with phase := .resolved, resolved := resolved })
          | .error .number => some (db, { party with phase := .deviceReady })
          | .error _ => none
      | .writeConnectAddress properties, .resolved =>
          if ShowsAddresses properties party.config.fConnectChannels then
            some (party.writeConnectAddress db properties)
          else none
      | .reset, .idle => none
      | .reset, _ => some (party.reset db)
      | _, _ => none

/-- What one step of an instance does. -/
inductive Acts (db : Db) (party : Party) : CycleAction → Db × Party → Prop where
  | initializeTopology (idle : party.phase = .idle) :
      Acts db party .initializeTopology (party.initializeTopology db)
  | writeBindAddress (properties : Properties) (initialized : party.phase = .initialized)
      (shows_ : ShowsAddresses properties party.config.fBindChannels) :
      Acts db party (.writeBindAddress properties) (party.writeBindAddress db properties)
  | waitBindAddress (bindWritten : party.phase = .bindWritten) :
      Acts db party .waitBindAddress (db, { party with phase := .waited })
  | resolveConnectAddress (waited : party.phase = .waited) (resolved : List SocketProperty)
      (ok : party.config.resolveConnectAddress db = .ok resolved) :
      Acts db party .resolveConnectAddress
        (db, { party with phase := .resolved, resolved := resolved })
  | throw (waited : party.phase = .waited) :
      Acts db party .resolveConnectAddress (db, { party with phase := .deviceReady })
  | writeConnectAddress (properties : Properties) (resolved : party.phase = .resolved)
      (shows_ : ShowsAddresses properties party.config.fConnectChannels) :
      Acts db party (.writeConnectAddress properties) (party.writeConnectAddress db properties)
  | reset (busy : party.phase ≠ .idle) : Acts db party .reset (party.reset db)

variable {db party} {action : CycleAction} {result : Db × Party}

theorem acts_of_step (stepped : step (db, party) action = some result) :
    Acts db party action result := by
  simp only [step] at stepped
  split at stepped
  · rename_i idle
    cases stepped
    exact .initializeTopology idle
  · rename_i properties initialized
    split at stepped
    · rename_i shows_
      cases stepped
      exact .writeBindAddress properties initialized shows_
    · cases stepped
  · rename_i bindWritten
    split at stepped
    · cases stepped
      exact .waitBindAddress bindWritten
    · cases stepped
  · rename_i waited
    split at stepped
    · rename_i resolved ok
      cases stepped
      exact .resolveConnectAddress waited resolved ok
    · cases stepped
      exact .throw waited
    · cases stepped
  · rename_i properties resolved
    split at stepped
    · rename_i shows_
      cases stepped
      exact .writeConnectAddress properties resolved shows_
    · cases stepped
  · cases stepped
  · rename_i busy
    cases stepped
    exact .reset busy
  · cases stepped

end Party

/-- A key of a channel or of a sub-socket of an instance. -/
def OwnArea (config : TopologyConfig) (key : Text) : Prop :=
  area config.fServiceName config.fId channelPrefix <+: key ∨
    area config.fServiceName config.fId socketPrefix <+: key

instance (config : TopologyConfig) (key : Text) : Decidable (OwnArea config key) :=
  inferInstanceAs (Decidable (_ ∨ _))

/-- A key that an instance may write in a cycle. -/
def Writes (config : TopologyConfig) (key : Text) : Prop :=
  Region config key ∧ OwnArea config key

theorem writes_instanceChannelKey {channel : Text} (name : ChannelName channel) :
    Writes config (instanceChannelKey config.fServiceName config.fId channel) :=
  ⟨region_instanceChannelKey name, Or.inl (area_prefix_instanceChannelKey _ _ _)⟩

theorem writes_instanceSocketKey (channel : Text) (index : Nat) :
    Writes config (instanceSocketKey config.fServiceName config.fId channel index) :=
  ⟨region_instanceSocketKey channel index, Or.inr (area_prefix_instanceSocketKey _ _ _ _)⟩

theorem area_prefix_instancePeerKey (service instanceId channel : Text) :
    area service instanceId channelPrefix <+: instancePeerKey service instanceId channel := by
  rw [instancePeerKey_eq]
  exact (area_prefix_instanceChannelKey _ _ _).trans (List.prefix_append _ _)

theorem instanceKey_of_ownArea {key : Text} (own : OwnArea config key) :
    instanceKey config.fServiceName config.fId ++ [':'] <+: key := by
  have front (kind : Text) : instanceKey config.fServiceName config.fId ++ [':'] <+:
      area config.fServiceName config.fId kind := ⟨kind ++ [':'], by simp [area]⟩
  rcases own with inChannels | inSockets
  · exact (front _).trans inChannels
  · exact (front _).trans inSockets

/-- The health of an instance is no key of its channels or sub-sockets, nor of those of
another one. -/
theorem not_ownArea_healthKey (name : InstanceName config.fServiceName config.fId)
    {service instanceId : Text} (other : InstanceName service instanceId) :
    ¬ OwnArea config (healthKey service instanceId) := by
  have absurdArea (kind : Text) :
      ¬ area config.fServiceName config.fId kind <+: healthKey service instanceId := by
    rintro ⟨rest, equal⟩
    have parts : config.fServiceName ++ ':' :: (config.fId ++ ':' :: (kind ++ ':' :: rest)) =
        service ++ ':' :: (instanceId ++ ':' :: healthPrefix) := by
      simpa [area, instanceKey_eq, healthKey, colon] using equal
    rcases Text.append_separator_inj name.serviceName.part other.serviceName.part parts with
      ⟨-, parts⟩
    rcases Text.append_separator_inj name.instanceName.part other.instanceName.part parts with
      ⟨-, parts⟩
    have colons : ':' ∈ healthPrefix := by
      rw [← parts]
      exact List.mem_append_right _ List.mem_cons_self
    exact absurd colons (by decide)
  rintro (inChannels | inSockets)
  · exact absurdArea _ inChannels
  · exact absurdArea _ inSockets

/-- A pipeline changes the keys it creates only. -/
theorem lookup_execAll_of_notMem_createdKeys (db : Db) {commands : List Command} {key : Text}
    (absent : key ∉ createdKeys commands) : (execAll db commands).lookup key = db.lookup key := by
  induction commands generalizing db with
  | nil => rfl
  | cons command rest ih =>
      have split : createdKeys (command :: rest) = createdKeys [command] ++ createdKeys rest :=
        createdKeys_append [command] rest
      rw [split, List.mem_append, not_or] at absent
      have same : (command.exec db).lookup key = db.lookup key := by
        cases command with
        | expire _ => rfl
        | hset _ _ | rpush _ _ =>
            apply Command.lookup_exec_of_ne
            rintro rfl
            exact absent.1 List.mem_cons_self
      exact (ih (command.exec db) absent.2).trans same

theorem mem_or_created_of_mem_execAll (db : Db) {commands : List Command} {key : Text}
    (member : key ∈ execAll db commands) : key ∈ db ∨ key ∈ createdKeys commands := by
  by_contra neither
  rw [not_or] at neither
  exact neither.1 ((mem_of_lookup_eq (lookup_execAll_of_notMem_createdKeys db neither.2)).mp member)

theorem exists_of_mem_createdKeys {commands : List Command} {key : Text}
    (member : key ∈ createdKeys commands) : ∃ command ∈ commands, command.key = key := by
  rcases List.mem_filterMap.mp member with ⟨command, inCommands, isKey⟩
  refine ⟨command, inCommands, ?_⟩
  cases command with
  | hset _ _ | rpush _ _ => exact Option.some.inj isKey
  | expire _ => cases isKey

/-- The commands of `Initialize` create the keys that it registers. -/
theorem createdKeys_configured (config : TopologyConfig) (records : List Configured) :
    createdKeys (records.flatMap fun record => config.writeChannel record.sp record.peers) =
      records.flatMap fun record => config.channelKeys record.sp record.peers := by
  simp only [createdKeys_flatMap, createdKeys_writeChannel]

theorem exists_of_mem_addressKeys (standard : config.Standard) {properties : Properties}
    {channels : MQChannel} {key : Text} (member : key ∈ config.addressKeys properties channels) :
    ∃ channel index, key = instanceSocketKey config.fServiceName config.fId channel index := by
  rcases List.mem_flatMap.mp member with ⟨entry, -, member⟩
  rcases List.mem_map.mp member with ⟨index, -, rfl⟩
  exact ⟨entry.2.name, index, socketKey_eq standard _ _⟩

/-! ## Initialize in any cycle -/

/-- The registry while the instances are in their cycles. -/
def Kept (instances : ι → TopologyConfig) (db later : Db) : Prop :=
  ∀ key, (∀ i, ¬ Writes (instances i) key) → later.lookup key = db.lookup key

theorem Kept.untouched (kept : Kept instances db later) : Untouched instances db later :=
  fun key outside => kept key fun i writes => outside i writes.1

/-- What an instance without channels makes of the topology, whatever links it knows
from earlier cycles. -/
structure Initializes (links : List LinkKey) (db later : Db) (config : TopologyConfig)
    (known : Links)
    (current : TopologyConfig) (result : TopologyConfig × Db × List Configured) : Prop where
  collected : Collected links db config current
  published : current.Publishes later current.channelList result
  equation : (config.knowing known).initializeTopology later = (result.1, some result.2.2)

namespace Assembly

variable (assembly : Assembly links instances db)

include assembly

/-- `Initialize` does not throw in any cycle. -/
theorem exists_initializes (sameTopology : SameTopology db later) (i : ι)
    (noOption : (instances i).connectConfig = []) {known : Links}
    (recorded : Recorded (instances i).fServiceName links known) :
    ∃ current result, Initializes links db later (instances i) known current result := by
  have standard := assembly.standard i
  have service := (assembly.name i).serviceName
  rcases assembly.exists_readChannels_eq sameTopology i known with ⟨read, readEq⟩
  have noChannel (name : Text) (sp : SocketProperty) :
      ¬ ((instances i).fBindChannels.lookup name = some sp ∨
        (instances i).fConnectChannels.lookup name = some sp) := by
    simp [assembly.noBind i, assembly.noConnect i]
  have spec := @readChannels_spec _ _ (FromEndpoint db (instances i)) _ readEq
    (fun name sp found => absurd found (noChannel name sp))
    (by
      intro child member
      rw [show ((instances i).knowing known).connectConfig = [] from noOption] at member
      cases member)
    (by
      intro endpoint member sp property
      rcases assembly.declared_of_mem_readEndpoints sameTopology i member with
        ⟨channel, base, rfl, declares⟩
      rw [show ((instances i).knowing known).readEndpointProperty later
          ((instances i).endpointKey channel) = some { base with name := channel } from
        (assembly.readEndpointProperty_declared sameTopology i declares).2] at property
      cases property
      constructor
      · rw [endpointKey_eq standard]
        exact declares.stored
      · refine ⟨base, ?_, rfl⟩
        rw [endpointKey_eq standard]
        exact declares.read)
  rcases spec with ⟨⟨bind, connect, rfl⟩, fromEndpoints⟩
  have sortedBefore : ((instances i).knowing known).Sorted :=
    ⟨fun name sp found => absurd (Or.inl found) (noChannel name sp),
      fun name sp found => absurd (Or.inr found) (noChannel name sp)⟩
  have sorted := readChannels_sorted sortedBefore readEq
  rcases collectLinks_spec (⟨standard.top, standard.separator⟩ : { (instances i).knowing known with
      fBindChannels := bind, fConnectChannels := connect : TopologyConfig }.Standard)
    ⟨service.part, service.commaFree, service.plain⟩ (assembly.declares_later sameTopology) recorded
    with ⟨fLinks, collects, recordedNow, complete⟩
  generalize currentEq : ({ { (instances i).knowing known with
    fBindChannels := bind, fConnectChannels := connect } with fLinks := fLinks } : TopologyConfig) =
      current at collects
  refine ⟨current, current.publishChannels later current.channelList, ?_,
    publishChannels_spec _, ?_⟩
  · subst currentEq
    constructor
    · exact ⟨bind, connect, fLinks, rfl⟩
    · exact ⟨sorted.bind, sorted.connect⟩
    · exact fromEndpoints
    · exact recordedNow
    · exact complete
    · intro name stored base read
      rw [endpointKey_eq standard] at stored read
      rcases assembly.readEndpointProperty_declared sameTopology i ⟨stored, read⟩ with
        ⟨member, property⟩
      exact readChannels_complete readEq member property
  · apply initializeTopology_of_some
    rw [initializeChannels, readEq, Option.bind_eq_bind, Option.bind_some, collects]
    rfl

end Assembly

/-- A channel of a declared endpoint. -/
def OfEndpoint (db : Db) (service name : Text) (sp : SocketProperty) : Prop :=
  sp.name = name ∧ ∃ base, DeclaresEndpoint db service name base ∧ base.method = sp.method

namespace Initializes

variable {known : Links} {current : TopologyConfig} {result : TopologyConfig × Db × List Configured}
  (initializes : Initializes links db later config known current result)

include initializes

theorem sameKeys : current.fServiceName = config.fServiceName ∧ current.fId = config.fId ∧
    current.writeChannel = config.writeChannel := by
  rcases initializes.collected.identity with ⟨bind, connect, fLinks, rfl⟩
  exact ⟨rfl, rfl, rfl⟩

theorem identity : ∃ bind connect fLinks keys, result.1 = { config with
    fBindChannels := bind, fConnectChannels := connect, fLinks := fLinks,
    fRegisteredKeys := keys } := by
  rcases initializes.collected.identity with ⟨bind, connect, fLinks, currentEq⟩
  rcases initializes.published.identity with ⟨bind', connect', keys, resultEq⟩
  rw [currentEq] at resultEq
  exact ⟨bind', connect', fLinks, keys, resultEq⟩

theorem recorded : Recorded config.fServiceName links result.1.fLinks := by
  rcases initializes.published.identity with ⟨bind, connect, keys, resultEq⟩
  rw [resultEq]
  exact initializes.collected.recorded

theorem ofEndpoint (standard : config.Standard) :
    result.1.AllChannels (OfEndpoint db config.fServiceName) := by
  have ofFromEndpoint {name : Text} {sp : SocketProperty}
      (fromEndpoint : FromEndpoint db config name sp) :
        OfEndpoint db config.fServiceName name sp := by
    rcases fromEndpoint.read with ⟨base, read, rfl⟩
    have stored := fromEndpoint.endpoint
    rw [endpointKey_eq standard] at stored read
    exact ⟨rfl, base, ⟨stored, read⟩, rfl⟩
  apply initializes.published.all
  · exact fun name sp found => ofFromEndpoint (initializes.collected.fromEndpoints name sp found)
  · intro record inRecords
    rcases initializes.collected.origin initializes.published inRecords with
      ⟨sp, -, fromEndpoint, method, -⟩
    rcases ofFromEndpoint fromEndpoint with ⟨-, base, declares, sameMethod⟩
    exact ⟨rfl, base, declares, sameMethod.trans method.symm⟩

theorem fRegisteredKeys_eq : result.1.fRegisteredKeys = config.fRegisteredKeys ++
    result.2.2.flatMap fun record => config.channelKeys record.sp record.peers := by
  have registered := initializeTopology_fRegisteredKeys (config.knowing known) later
  rw [initializes.equation] at registered
  exact registered

end Initializes

/-- What an instance has of the topology and in the registry, whatever its cycle. In
the state `Idle` it is as it was in the beginning but for the links it knows. -/
structure Sound (links : List LinkKey) (config : TopologyConfig) (db later : Db) (party : Party) :
    Prop where
  identity : ∃ bind connect fLinks keys, party.config = { config with
    fBindChannels := bind, fConnectChannels := connect, fLinks := fLinks, fRegisteredKeys := keys }
  recorded : Recorded config.fServiceName links party.config.fLinks
  idle : party.phase = .idle → party.config = config.knowing party.config.fLinks
  unpublished : party.phase = .idle ∨ party.phase = .initialized → party.published = []
  sorted : party.config.Sorted
  ofEndpoint : party.config.AllChannels (OfEndpoint db config.fServiceName)
  writes : ∀ key ∈ party.config.fRegisteredKeys, Writes config key
  registered : ∀ key ∈ later, OwnArea config key → key ∈ party.config.fRegisteredKeys ∨
    ∃ channel, ChannelName channel ∧
      key = instanceChannelKey config.fServiceName config.fId channel

/-- Instances in the beginning: without an option for their channels, without a
registered key, and without a key of a channel or a sub-socket in the registry. -/
structure Ready (links : List LinkKey) (instances : ι → TopologyConfig) (db : Db) : Prop
    extends Assembly links instances db where
  noOption : ∀ i, (instances i).connectConfig = []
  noKeys : ∀ i, (instances i).fRegisteredKeys = []
  unwritten : ∀ i, ∀ key ∈ db, ¬ OwnArea (instances i) key

/-- All instances in the beginning. -/
def beforeCycles (instances : ι → TopologyConfig) (db : Db) : Network ι Db Party :=
  ⟨db, fun i => { config := instances i }⟩

namespace Sound

variable {party : Party} (sound : Sound links config db later party)

include sound

theorem sameKeys : party.config.fServiceName = config.fServiceName ∧
    party.config.fId = config.fId ∧ (config.Standard → party.config.Standard) := by
  rcases sound.identity with ⟨bind, connect, fLinks, keys, equal⟩
  rw [equal]
  exact ⟨rfl, rfl, fun standard => ⟨standard.top, standard.separator⟩⟩

/-- Keys of sub-sockets are registered. -/
theorem mem_of_area {key : Text} (member : key ∈ later)
    (inSockets : area config.fServiceName config.fId socketPrefix <+: key) :
    key ∈ party.config.fRegisteredKeys := by
  rcases sound.registered key member (Or.inr inSockets) with registered | ⟨channel, -, rfl⟩
  · exact registered
  · exact absurd inSockets (not_area_socket (area_prefix_instanceChannelKey _ _ _))

/-- Peer lists are registered. -/
theorem mem_of_peerKey {channel : Text}
    (member : instancePeerKey config.fServiceName config.fId channel ∈ later) :
    instancePeerKey config.fServiceName config.fId channel ∈ party.config.fRegisteredKeys := by
  rcases sound.registered _ member (Or.inl (area_prefix_instancePeerKey _ _ _)) with
    registered | ⟨other, name, equal⟩
  · exact registered
  · exact absurd equal (instancePeerKey_ne_instanceChannelKey name.name.part _ _ _)

/-- A step that changes the phase only. -/
theorem proceed {next : Party}
    (sameConfig : next.config = party.config)
    (written : next.phase.written = true) :
    Sound links config db later next := by
  constructor
  · rw [sameConfig]
    exact sound.identity
  · rw [sameConfig]
    exact sound.recorded
  · intro idle
    rw [idle] at written
    cases written
  · rintro (early | early) <;>
    · rw [early] at written
      cases written
  · rw [sameConfig]
    exact sound.sorted
  · rw [sameConfig]
    exact sound.ofEndpoint
  · rw [sameConfig]
    exact sound.writes
  · rw [sameConfig]
    exact sound.registered

/-- What others write does not matter. -/
theorem congr {after : Db}
    (same : ∀ key, OwnArea config key → after.lookup key = later.lookup key) :
    Sound links config db after party := by
  constructor
  · exact sound.identity
  · exact sound.recorded
  · exact sound.idle
  · exact sound.unpublished
  · exact sound.sorted
  · exact sound.ofEndpoint
  · exact sound.writes
  · intro key member own
    exact sound.registered key ((mem_of_lookup_eq (same key own)).mp member) own

end Sound

/-! ## What a step keeps -/

namespace Ready

variable (ready : Ready links instances db) {i : ι} {party : Party}

include ready

/-- The keys of channels that `Initialize` registers. -/
theorem writes_channelKeys {current : TopologyConfig} {known : Links}
    {result : TopologyConfig × Db × List Configured}
    (initializes : Initializes links db later (instances i) known current result) {key : Text}
    (member : key ∈ result.2.2.flatMap fun record =>
      (instances i).channelKeys record.sp record.peers) : Writes (instances i) key := by
  have standard := ready.standard i
  rcases List.mem_flatMap.mp member with ⟨record, inRecords, member⟩
  rcases initializes.collected.origin initializes.published inRecords with
    ⟨sp, -, fromEndpoint, -⟩
  have stored := fromEndpoint.endpoint
  rw [endpointKey_eq standard] at stored
  have name := ready.channelName i stored
  rw [channelKeys] at member
  split at member
  · cases member
  · simp only [List.mem_cons, List.not_mem_nil, or_false] at member
    rw [channelKey_eq standard, peerListKey_instanceChannelKey standard] at member
    rcases member with rfl | rfl
    · exact writes_instanceChannelKey name
    · exact ⟨region_instancePeerKey _, Or.inl (area_prefix_instancePeerKey _ _ _)⟩

/-- So are the keys that it may change before the channel in turn. -/
theorem writes_publishedKeys {current : TopologyConfig}
    (collected : Collected links db (instances i) current) {key : Text}
    (member : key ∈ current.publishedKeys current.channelList) : Writes (instances i) key := by
  have standard := ready.standard i
  rcases List.mem_flatMap.mp member with ⟨sp, inChannels, isKey⟩
  rcases collected.fromEndpoints.of_mem_channelList inChannels with ⟨name, fromEndpoint⟩
  have currentStandard : current.Standard := by
    rcases collected.identity with ⟨bind, connect, fLinks, rfl⟩
    exact ⟨standard.top, standard.separator⟩
  have stored := fromEndpoint.endpoint
  rw [endpointKey_eq standard] at stored
  simp only [List.mem_cons, List.not_mem_nil, or_false] at isKey
  rw [fromEndpoint.sameName, channelKey_eq currentStandard,
    peerListKey_instanceChannelKey currentStandard, collected.sameService,
      collected.sameId] at isKey
  rcases isKey with rfl | rfl
  · exact writes_instanceChannelKey (ready.channelName i stored)
  · exact ⟨region_instancePeerKey _, Or.inl (area_prefix_instancePeerKey _ _ _)⟩

/-- What `Initialize` does in any cycle. -/
theorem exists_initializeTopology (sameTopology : SameTopology db later)
    (sound : Sound links (instances i) db later party) (idle : party.phase = .idle) :
    ∃ current result, Initializes links db later (instances i) party.config.fLinks current result ∧
      party.initializeTopology later =
        (execAll later (result.2.2.flatMap fun record =>
            (instances i).writeChannel record.sp record.peers),
          { party with config := result.1, phase := .initialized }) := by
  rcases ready.exists_initializes sameTopology i (ready.noOption i) sound.recorded with
    ⟨current, result, initializes⟩
  refine ⟨current, result, initializes, ?_⟩
  have equation := initializes.equation
  rw [← sound.idle idle] at equation
  have sameWrites : party.config.writeChannel = (instances i).writeChannel := by
    rw [sound.idle idle]
    rfl
  rw [Party.initializeTopology, equation, sameWrites]
  rfl

/-- `Initialize` keeps what an instance has, and writes its own keys only. -/
theorem sound_initializeTopology (sameTopology : SameTopology db later)
    (sound : Sound links (instances i) db later party) (idle : party.phase = .idle) :
    Sound links (instances i) db (party.initializeTopology later).1
        (party.initializeTopology later).2 ∧
      ∀ key, ¬ Writes (instances i) key →
        (party.initializeTopology later).1.lookup key = later.lookup key := by
  have standard := ready.standard i
  rcases ready.exists_initializeTopology sameTopology sound idle with
    ⟨current, result, initializes, equation⟩
  have writes {key : Text} :=
    @writes_channelKeys _ _ _ _ later ready i current _ result initializes key
  have registered := initializes.fRegisteredKeys_eq
  rw [ready.noKeys i, List.nil_append] at registered
  have created := createdKeys_configured (instances i) result.2.2
  rw [equation]
  constructor
  · constructor
    · exact initializes.identity
    · exact initializes.recorded
    · intro stillIdle
      cases stillIdle
    · exact fun _ => sound.unpublished (Or.inl idle)
    · exact initializes.collected.result_sorted initializes.published
    · exact initializes.ofEndpoint standard
    · intro key member
      exact writes (registered ▸ member)
    · intro key member own
      rcases mem_or_created_of_mem_execAll later member with before | new
      · rcases sound.registered key before own with old | mark
        · rw [sound.idle idle] at old
          have none : (instances i).fRegisteredKeys = [] := ready.noKeys i
          rw [show ((instances i).knowing party.config.fLinks).fRegisteredKeys =
            [] from none] at old
          cases old
        · exact Or.inr mark
      · rw [created, ← registered] at new
        exact Or.inl new
  · intro key notWritten
    apply lookup_execAll_of_notMem_createdKeys
    rw [created]
    exact fun member => notWritten (writes member)

/-- So does `WriteAddress`, for the bind channels and the connect channels. -/
theorem sound_writeAddress (sound : Sound links (instances i) db later party)
    (properties : Properties) {channels : MQChannel} {f : Text → List Command}
    (marks : ∀ name ∈ channels, ∀ key ∈ createdKeys (f name), ∃ channel, ChannelName channel ∧
      key = instanceChannelKey (instances i).fServiceName (instances i).fId channel)
    {next : Party} (config : next.config = party.registerAddresses properties channels)
    (written : next.phase.written = true) :
    Sound links (instances i) db
        (execAll later (party.config.writeAddress properties channels f)) next ∧
      ∀ key, ¬ Writes (instances i) key →
        (execAll later (party.config.writeAddress properties channels f)).lookup key =
          later.lookup key := by
  rcases sound.sameKeys with ⟨sameService, sameId, standard⟩
  have socket {key : Text} (member : key ∈ party.config.addressKeys properties channels) :
      Writes (instances i) key := by
    rcases exists_of_mem_addressKeys (standard (ready.standard i)) member with ⟨channel, index, rfl⟩
    rw [sameService, sameId]
    exact writes_instanceSocketKey channel index
  have created (key : Text) := createdKeys_writeAddress party.config properties channels f key
  constructor
  · constructor
    · rcases sound.identity with ⟨bind, connect, fLinks, keys, equal⟩
      rw [config, Party.registerAddresses, equal]
      exact ⟨bind, connect, fLinks, _, rfl⟩
    · rw [config]
      exact sound.recorded
    · intro idle
      rw [idle] at written
      cases written
    · rintro (early | early) <;>
      · rw [early] at written
        cases written
    · rw [config]
      exact ⟨sound.sorted.bind, sound.sorted.connect⟩
    · rw [config]
      exact sound.ofEndpoint
    · intro key member
      rw [config] at member
      rcases List.mem_append.mp member with old | new
      · exact sound.writes key old
      · exact socket new
    · intro key member own
      rw [config]
      rcases mem_or_created_of_mem_execAll later member with before | new
      · rcases sound.registered key before own with old | mark
        · exact Or.inl (List.mem_append_left _ old)
        · exact Or.inr mark
      · rcases (created key).mp new with address | ⟨name, inChannels, mark⟩
        · exact Or.inl (List.mem_append_right _ address)
        · exact Or.inr (marks name inChannels key mark)
  · intro key notWritten
    apply lookup_execAll_of_notMem_createdKeys
    intro new
    rcases (created key).mp new with address | ⟨name, inChannels, mark⟩
    · exact notWritten (socket address)
    · rcases marks name inChannels key mark with ⟨channel, isName, rfl⟩
      exact notWritten (writes_instanceChannelKey isName)

/-- So does `Reset`. -/
theorem sound_reset (sound : Sound links (instances i) db later party) :
    Sound links (instances i) db (party.reset later).1 (party.reset later).2 ∧
      ∀ key, ¬ Writes (instances i) key →
        (party.reset later).1.lookup key = later.lookup key := by
  rcases sound.identity with ⟨bind, connect, fLinks, keys, equal⟩
  have noKeys := ready.noKeys i
  have noBind := ready.noBind i
  have noConnect := ready.noConnect i
  have parts : (party.reset later).2.config = { party.config with
      fBindChannels := ∅, fConnectChannels := ∅, fRegisteredKeys := [] } := rfl
  have config : (party.reset later).2.config = (instances i).knowing party.config.fLinks := by
    rw [parts, equal, knowing, ← noKeys, ← noBind]
    nth_rewrite 2 [noBind]
    rw [← noConnect]
  have noChannel (name : Text) (sp : SocketProperty) :
      ¬ ((party.reset later).2.config.fBindChannels.lookup name = some sp ∨
        (party.reset later).2.config.fConnectChannels.lookup name = some sp) := by
    rintro (found | found) <;> cases found
  constructor
  · constructor
    · rw [parts, equal]
      exact ⟨∅, ∅, fLinks, [], rfl⟩
    · exact sound.recorded
    · exact fun _ => config
    · exact fun _ => rfl
    · exact ⟨fun name sp found => absurd (Or.inl found) (noChannel name sp),
        fun name sp found => absurd (Or.inr found) (noChannel name sp)⟩
    · exact fun name sp found => absurd found (noChannel name sp)
    · intro key member
      cases member
    · intro key member own
      rcases (mem_del later).mp member with ⟨notDeleted, before⟩
      exact Or.inr ((sound.registered key before own).resolve_left notDeleted)
  · intro key notWritten
    have deleted : (party.reset later).1 = del later party.config.fRegisteredKeys := rfl
    rw [deleted, lookup_del, if_neg fun member => notWritten (sound.writes key member)]

/-- Every step keeps what the instance has, and writes its own keys only. -/
theorem sound_step (sameTopology : SameTopology db later)
    (sound : Sound links (instances i) db later party) {action : CycleAction} {result : Db × Party}
    (acts : party.Acts later action result) :
    Sound links (instances i) db result.1 result.2 ∧
      ∀ key, ¬ Writes (instances i) key → result.1.lookup key = later.lookup key := by
  rcases sound.sameKeys with ⟨sameService, sameId, standard⟩
  cases acts with
  | initializeTopology idle => exact ready.sound_initializeTopology sameTopology sound idle
  | writeBindAddress properties =>
      apply ready.sound_writeAddress sound properties _ rfl rfl
      intro name inChannels key mark
      rcases Option.isSome_iff_exists.mp (AList.lookup_isSome.mpr inChannels) with ⟨sp, found⟩
      rcases sound.ofEndpoint name sp (Or.inl found) with ⟨-, base, declares, -⟩
      rw [markBound, channelKey_eq (standard (ready.standard i)), sameService, sameId] at mark
      exact ⟨name, ready.channelName i declares.stored, List.mem_singleton.mp mark⟩
  | waitBindAddress => exact ⟨sound.proceed rfl rfl, fun _ _ => rfl⟩
  | resolveConnectAddress => exact ⟨sound.proceed rfl rfl, fun _ _ => rfl⟩
  | throw => exact ⟨sound.proceed rfl rfl, fun _ _ => rfl⟩
  | writeConnectAddress properties =>
      apply ready.sound_writeAddress sound properties _ rfl rfl
      intro name _ key mark
      cases mark
  | reset => exact ready.sound_reset sound

/-- The keys of one instance are not written by another one. -/
theorem not_writes {j : ι} (differs : j ≠ i) {key : Text} (own : OwnArea (instances j) key) :
    ¬ Writes (instances i) key := by
  intro writes
  rcases unique_of_instanceKey (ready.name j) (ready.name i) (instanceKey_of_ownArea own)
    (instanceKey_of_ownArea writes.2) with ⟨service, instanceId⟩
  exact differs (ready.distinct j i service instanceId)

end Ready

/-- The registry and what each instance has, in any cycles. -/
structure InCycles (links : List LinkKey) (instances : ι → TopologyConfig) (db : Db)
    (network : Network ι Db Party) : Prop where
  kept : Kept instances db network.shared
  sound : ∀ i, Sound links (instances i) db network.shared (network.party i)

theorem Ready.inCycles (ready : Ready links instances db) :
    InCycles links instances db (beforeCycles instances db) := by
  constructor
  · exact fun key _ => rfl
  · intro i
    have noChannel (name : Text) (sp : SocketProperty) :
        ¬ ((instances i).fBindChannels.lookup name = some sp ∨
          (instances i).fConnectChannels.lookup name = some sp) := by
      simp [ready.noBind i, ready.noConnect i]
    have noKeys := ready.noKeys i
    constructor
    · exact ⟨_, _, _, _, rfl⟩
    · intro name lp found
      rw [show ((beforeCycles instances db).party i).config.fLinks =
        ∅ from ready.noLinks i] at found
      cases found
    · exact fun _ => rfl
    · exact fun _ => rfl
    · exact ⟨fun name sp found => absurd (Or.inl found) (noChannel name sp),
        fun name sp found => absurd (Or.inr found) (noChannel name sp)⟩
    · exact fun name sp found => absurd found (noChannel name sp)
    · intro key member
      rw [show ((beforeCycles instances db).party i).config.fRegisteredKeys = [] from noKeys]
        at member
      cases member
    · exact fun key member own => absurd own (ready.unwritten i key member)

theorem InCycles.sameTopology {network : Network ι Db Party}
    (inCycles : InCycles links instances db network) (ready : Ready links instances db) :
    SameTopology db network.shared :=
  ready.toAssembly.sameTopology inCycles.kept.untouched

section Network

variable [DecidableEq ι] {network next : Network ι Db Party} {i : ι} {action : CycleAction}

omit [DecidableEq ι] in
/-- A step leaves the keys of the other instances as they are. -/
theorem InCycles.lookup_eq (inCycles : InCycles links instances db network)
    (ready : Ready links instances db) {result : Db × Party}
    (acts : (network.party i).Acts network.shared action result) {j : ι} (differs : j ≠ i)
    {key : Text} (own : OwnArea (instances j) key) :
    result.1.lookup key = network.shared.lookup key :=
  (ready.sound_step (inCycles.sameTopology ready) (inCycles.sound i) acts).2 key
    (ready.not_writes differs own)

theorem InCycles.step (inCycles : InCycles links instances db network)
    (ready : Ready links instances db) {result : Db × Party}
    (acts : (network.party i).Acts network.shared action result) :
    InCycles links instances db (network.acted i result) := by
  rcases ready.sound_step (inCycles.sameTopology ready) (inCycles.sound i) acts with
    ⟨sound, frame⟩
  constructor
  · intro key outside
    rw [Network.acted_shared, frame key (outside i), inCycles.kept key outside]
  · intro j
    by_cases same : j = i
    · subst same
      rw [Network.acted_shared, Network.acted_party_self]
      exact sound
    · rw [Network.acted_shared, Network.acted_party_of_ne _ same]
      exact (inCycles.sound j).congr fun key own => inCycles.lookup_eq ready acts same own

end Network

end NestDaq.Topology
