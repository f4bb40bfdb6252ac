import NestDaq.Topology.Connecting
import NestDaq.Topology.Exchange

/-!
# Assemblies

Instances that start together on a registry with the declared topology, and what
none of them changes there while the others initialize and connect: each writes
below its own key only, and not its presence. So every instance finds the same
topology at its turn, whatever the others have done by then.
-/

namespace NestDaq.Topology

open NestDaq.Registry
open NestDaq.Store
open TopologyConfig

variable {ι : Type} {links : List LinkKey} {instances : ι → TopologyConfig} {db later : Db}
  {config current : TopologyConfig}

/-! ## The keys an instance writes -/

/-- A key below the key of an instance, other than its presence. -/
def Region (config : TopologyConfig) (key : Text) : Prop :=
  instanceKey config.fServiceName config.fId ++ [':'] <+: key ∧ ¬ ':' :: presencePrefix <:+ key

/-- The last part of a key tells whether it is a presence key. -/
theorem presence_suffix_iff {front last : Text} (part : Part last) :
    ':' :: presencePrefix <:+ front ++ ':' :: last ↔ last = presencePrefix := by
  constructor
  · rintro ⟨before, equal⟩
    exact (Text.append_separator_inj_last (by decide) part equal).2.symm
  · rintro rfl
    exact List.suffix_append _ _

/-- `<top>:<service>:<instance>:fair-mq-state`. -/
def instanceStateKey (service instanceId : Text) : Text :=
  Text.join [topPrefix, service, instanceId, fairMQStatePrefix] colon

theorem stateKey_eq (standard : config.Standard) :
    config.stateKey = instanceStateKey config.fServiceName config.fId := by
  rw [stateKey, key, standard.top, standard.separator, instanceStateKey]

theorem region_stateKey (standard : config.Standard) : Region config config.stateKey := by
  have split : config.stateKey =
      instanceKey config.fServiceName config.fId ++ ':' :: fairMQStatePrefix := by
    simp [stateKey, key, standard.top, standard.separator, instanceKey_eq, colon]
  rw [split]
  constructor
  · exact ⟨fairMQStatePrefix, by simp⟩
  · rw [presence_suffix_iff (by decide)]
    decide

theorem region_instanceChannelKey {channel : Text} (name : ChannelName channel) :
    Region config (instanceChannelKey config.fServiceName config.fId channel) := by
  have split : instanceChannelKey config.fServiceName config.fId channel =
      (instanceKey config.fServiceName config.fId ++ ':' :: channelPrefix) ++ ':' :: channel := by
    simp [instanceChannelKey_eq, instanceKey_eq]
  rw [split]
  constructor
  · exact ⟨channelPrefix ++ ':' :: channel, by simp⟩
  · rw [presence_suffix_iff name.name.part]
    exact name.free

theorem region_instancePeerKey (channel : Text) :
    Region config (instancePeerKey config.fServiceName config.fId channel) := by
  constructor
  · exact ⟨channelPrefix ++ ':' :: (channel ++ ':' :: peerPrefix), by
      simp [instancePeerKey_eq, instanceChannelKey_eq, instanceKey_eq]⟩
  · rw [instancePeerKey_eq, presence_suffix_iff (by decide)]
    decide

/-- The keys of sub-sockets end with a digit. -/
theorem region_instanceSocketKey (channel : Text) (index : Nat) :
    Region config (instanceSocketKey config.fServiceName config.fId channel index) := by
  constructor
  · exact ⟨socketPrefix ++ ':' :: (chansPrefix ++ '.' :: (channel ++ '.' :: Text.decimal index)), by
      simp [instanceSocketKey, socketKeyPrefix]⟩
  · have split : instanceSocketKey config.fServiceName config.fId channel index =
        (instanceKey config.fServiceName config.fId ++ ':' ::
          (socketPrefix ++ ':' :: (chansPrefix ++
          '.' :: channel))) ++ '.' :: Text.decimal index := by
      simp [instanceSocketKey, socketKeyPrefix]
    have noDot : '.' ∉ ':' :: presencePrefix := by decide
    rw [split]
    rintro ⟨before, equal⟩
    rcases List.append_eq_append_iff.mp equal with ⟨more, -, same⟩ | ⟨more, -, same⟩
    · exact noDot (same ▸ List.mem_append_right _ List.mem_cons_self)
    · cases more with
      | nil => exact absurd (List.cons.inj same).1 (by decide)
      | cons char more =>
          have digits : Text.decimal index = more ++ ':' :: presencePrefix := (List.cons.inj same).2
          have isDigit := Text.isDigit_of_mem_decimal
            (digits ▸ List.mem_append_right _ List.mem_cons_self : ':' ∈ Text.decimal index)
          exact absurd isDigit (by decide)

/-- Different instances have no key below both of their keys. -/
theorem unique_of_instanceKey {other : TopologyConfig} {key : Text}
    (name : InstanceName config.fServiceName config.fId)
    (otherName : InstanceName other.fServiceName other.fId)
    (here : instanceKey config.fServiceName config.fId ++ [':'] <+: key)
    (there : instanceKey other.fServiceName other.fId ++ [':'] <+: key) :
    config.fServiceName = other.fServiceName ∧ config.fId = other.fId := by
  rcases here with ⟨rest, rfl⟩
  rcases there with ⟨rest', equal⟩
  have parts : other.fServiceName ++ ':' :: (other.fId ++ ':' :: rest') =
      config.fServiceName ++ ':' :: (config.fId ++ ':' :: rest) := by
    simpa [instanceKey_eq] using equal
  rcases Text.append_separator_inj otherName.serviceName.part name.serviceName.part parts with
    ⟨service, parts⟩
  rcases Text.append_separator_inj otherName.instanceName.part name.instanceName.part parts with
    ⟨instanceId, -⟩
  exact ⟨service.symm, instanceId.symm⟩

/-- Different instances write different keys. -/
theorem Region.unique {other : TopologyConfig} {key : Text}
    (name : InstanceName config.fServiceName config.fId)
    (otherName : InstanceName other.fServiceName other.fId)
    (here : Region config key) (there : Region other key) :
    config.fServiceName = other.fServiceName ∧ config.fId = other.fId :=
  unique_of_instanceKey name otherName here.1 there.1

/-- A presence key is written by no instance. -/
theorem not_region_presenceKey (service instanceId : Text) :
    ¬ Region config (presenceKey service instanceId) := by
  have split : presenceKey service instanceId =
      (topPrefix ++ ':' :: (service ++ ':' :: instanceId)) ++ ':' :: presencePrefix := by
    simp [presenceKey_eq]
  rintro ⟨-, notPresence⟩
  exact notPresence (split ▸ List.suffix_append _ _)

/-- Neither is a key of the declared topology. -/
theorem not_region_topology (name : InstanceName config.fServiceName config.fId)
    (differs : config.fServiceName ≠ topologyPrefix) (rest : Text) :
    ¬ Region config (topPrefix ++ ':' :: (topologyPrefix ++ ':' :: rest)) := by
  rintro ⟨⟨tail, equal⟩, -⟩
  have parts : config.fServiceName ++ ':' :: (config.fId ++ ':' :: tail) =
      topologyPrefix ++ ':' :: rest := by
    simpa [instanceKey_eq] using equal
  exact differs (Text.append_separator_inj name.serviceName.part (by decide) parts).1

/-- A channel of a service, in terms of the declared endpoints. -/
structure ChannelOf (db : Db) (service name : Text) (sp : SocketProperty) : Prop where
  sameName : sp.name = name
  bind : sp.method = "bind".toList → ∃ base, DeclaresEndpoint db service name base ∧
    base.method = "bind".toList ∧ base.waitForPeerConnection = sp.waitForPeerConnection
  connect : sp.method = "connect".toList → ∀ base, DeclaresEndpoint db service name base →
    base.method ≠ "bind".toList

theorem DeclaresEndpoint.unique {service channel : Text} {first second : SocketProperty}
    (firstDeclares : DeclaresEndpoint db service channel first)
    (secondDeclares : DeclaresEndpoint db service channel second) : first = second :=
  Option.some.inj (firstDeclares.read.symm.trans secondDeclares.read)

/-- The ends of a link between endpoints. -/
theorem LinksEndpoints.ends {kind : SocketProperty → Prop}
    (endpoints : LinksEndpoints links db kind)
    {link : LinkKey} (member : link ∈ links) {near far : Text × Text}
    (joins : link.Joins near far) : ∃ nearBase farBase,
      DeclaresEndpoint db near.1 near.2 nearBase ∧ DeclaresEndpoint db far.1 far.2 farBase ∧
        (nearBase.method = "bind".toList ∨ farBase.method = "bind".toList) := by
  rcases endpoints link member with
    ⟨bindEnd, connectEnd, bindBase, connectBase, ends, ⟨bindDeclares, isBind, -⟩,
      connectDeclares, -⟩
  have sides : (near = bindEnd ∧ far = connectEnd) ∨ (near = connectEnd ∧ far = bindEnd) := by
    rcases joins with ⟨rfl, rfl⟩ | ⟨rfl, rfl⟩
    · rcases ends with ⟨rfl, rfl⟩ | ⟨rfl, rfl⟩
      · exact Or.inl ⟨rfl, rfl⟩
      · exact Or.inr ⟨rfl, rfl⟩
    · rcases ends with ⟨rfl, rfl⟩ | ⟨rfl, rfl⟩
      · exact Or.inr ⟨rfl, rfl⟩
      · exact Or.inl ⟨rfl, rfl⟩
  rcases sides with ⟨rfl, rfl⟩ | ⟨rfl, rfl⟩
  · exact ⟨bindBase, connectBase, bindDeclares, connectDeclares, Or.inl isBind⟩
  · exact ⟨connectBase, bindBase, connectDeclares, bindDeclares, Or.inr isBind⟩

/-! ## Assemblies -/

/-- Instances that are about to handle `CONNECT`. The links join different services of
which no name begins another, all instances of these services are present, the strings
in the place of a state are states of instances or declare links, endpoints and options
can be read, and no option makes a connect channel of a bind endpoint. -/
structure Site (links : List LinkKey) (instances : ι → TopologyConfig) (db : Db) : Prop where
  standard : ∀ i, (instances i).Standard
  name : ∀ i, InstanceName (instances i).fServiceName (instances i).fId
  noBind : ∀ i, (instances i).fBindChannels = ∅
  noConnect : ∀ i, (instances i).fConnectChannels = ∅
  noLinks : ∀ i, (instances i).fLinks = ∅
  distinct : ∀ i j, (instances i).fServiceName = (instances j).fServiceName →
    (instances i).fId = (instances j).fId → i = j
  declares : Declares db links
  noSelf : ∀ link ∈ links, link.serviceL ≠ link.serviceR
  noPrefix : ∀ i, ∀ link ∈ links,
    (instances i).fServiceName <+: link.serviceL → link.serviceL = (instances i).fServiceName
  endpoints : LinksEndpoints links db fun _ => True
  names : ∀ i channel, serviceEndpointKey (instances i).fServiceName channel ∈ db → Name channel
  readable : ∀ i channel, serviceEndpointKey (instances i).fServiceName channel ∈ db →
    ∃ base, DeclaresEndpoint db (instances i).fServiceName channel base
  options : ∀ i, ∀ child ∈ (instances i).connectConfig,
    ∃ sp, connectChannel child.1 child.2 = some sp ∧ ∀ base,
      DeclaresEndpoint db (instances i).fServiceName child.1 base → base.method ≠ "bind".toList
  present : ∀ service, IsEnd links service → ∀ instanceId, presenceKey service instanceId ∈ db ↔
    ∃ i, (instances i).fServiceName = service ∧ (instances i).fId = instanceId
  states : ∀ service, IsEnd links service → ∀ instanceId,
    (get db (instanceStateKey service instanceId)).isSome →
      (∃ i, (instances i).fServiceName = service ∧ (instances i).fId = instanceId) ∨
        ∃ link ∈ links, instanceStateKey service instanceId = link.key

/-- A site where the names that the registry gives to its own keys are not taken: no
service is called like the topology, and no channel like a presence. -/
structure Assembly (links : List LinkKey) (instances : ι → TopologyConfig) (db : Db) : Prop
    extends Site links instances db where
  unreservedService : ∀ i, (instances i).fServiceName ≠ topologyPrefix
  unreservedEnd : ∀ service, IsEnd links service → service ≠ topologyPrefix
  unreservedChannel : ∀ i,
    serviceEndpointKey (instances i).fServiceName presencePrefix ∉ db

/-- The two registries differ at most in keys that the instances write. -/
def Untouched (instances : ι → TopologyConfig) (db later : Db) : Prop :=
  ∀ key, (∀ i, ¬ Region (instances i) key) → later.lookup key = db.lookup key

/-- The two registries have the same declared topology. -/
def SameTopology (db later : Db) : Prop :=
  ∀ rest, later.lookup (topPrefix ++ ':' :: (topologyPrefix ++ ':' :: rest)) =
    db.lookup (topPrefix ++ ':' :: (topologyPrefix ++ ':' :: rest))

theorem Untouched.mem_presenceKey (untouched : Untouched instances db later)
    (service instanceId : Text) :
    presenceKey service instanceId ∈ later ↔ presenceKey service instanceId ∈ db :=
  mem_of_lookup_eq (untouched _ fun _ => not_region_presenceKey service instanceId)

/-- An instance that knows the topology: its bind channels are the declared ones, and
its links are declared. -/
structure Described (links : List LinkKey) (db : Db) (config current : TopologyConfig) : Prop where
  identity : ∃ bind connect fLinks keys, current = { config with
    fBindChannels := bind, fConnectChannels := connect, fLinks := fLinks, fRegisteredKeys := keys }
  bind : ∀ name sp, current.fBindChannels.lookup name = some sp → sp.name = name ∧
    ∃ base, DeclaresEndpoint db config.fServiceName name base ∧ base.method = "bind".toList ∧
      base.waitForPeerConnection = sp.waitForPeerConnection
  complete : ∀ name base, DeclaresEndpoint db config.fServiceName name base →
    base.method = "bind".toList → name ∈ current.fBindChannels
  recorded : Recorded config.fServiceName links current.fLinks

/-- An instance that knows links already. -/
def TopologyConfig.knowing (config : TopologyConfig) (known : Links) : TopologyConfig :=
  { config with fLinks := known }

/-- None of its connect channels is a bind endpoint. -/
def Connects (db : Db) (config current : TopologyConfig) : Prop :=
  ∀ name sp, current.fConnectChannels.lookup name = some sp → sp.name = name ∧
    ∀ base, DeclaresEndpoint db config.fServiceName name base → base.method ≠ "bind".toList

namespace Assembly

variable (assembly : Assembly links instances db)

include assembly

theorem separate (i : ι) : Separate links (instances i).fServiceName :=
  ⟨assembly.declares.wellFormed, assembly.noSelf, assembly.noPrefix i⟩

theorem channelName (i : ι) {channel : Text}
    (endpoint : serviceEndpointKey (instances i).fServiceName channel ∈ db) :
    ChannelName channel :=
  ⟨assembly.names i channel endpoint, fun reserved =>
    assembly.unreservedChannel i (reserved ▸ endpoint)⟩

theorem sameTopology (untouched : Untouched instances db later) : SameTopology db later :=
  fun rest => untouched _ fun i =>
    not_region_topology (assembly.name i) (assembly.unreservedService i) rest

omit assembly in
theorem lookup_serviceEndpointKey (sameTopology : SameTopology db later)
    (service channel : Text) : later.lookup (serviceEndpointKey service channel) =
      db.lookup (serviceEndpointKey service channel) := by
  have split : serviceEndpointKey service channel = topPrefix ++ ':' :: (topologyPrefix ++
      ':' :: (endpointPrefix ++ ':' :: (service ++ ':' :: channel))) := by
    simp [serviceEndpointKey, colon]
  rw [split]
  exact sameTopology _

theorem declares_later (sameTopology : SameTopology db later) : Declares later links := by
  have same (rest : Text) : later.lookup (LinkKey.keyPrefix ++ rest) =
      db.lookup (LinkKey.keyPrefix ++ rest) := by
    have split : LinkKey.keyPrefix ++ rest =
        topPrefix ++ ':' :: (topologyPrefix ++ ':' :: (linkPrefix ++ ':' :: rest)) := by
      simp [LinkKey.keyPrefix, colon]
    rw [split]
    exact sameTopology _
  constructor
  · exact assembly.declares.wellFormed
  · intro link member
    rcases assembly.declares.stored link member with ⟨options, stored⟩
    exact ⟨options, (same link.pairName).trans stored⟩
  · intro rest member comma
    exact assembly.declares.only rest ((mem_of_lookup_eq (same rest)).mp member) comma

/-! ## What Initialize makes of the topology -/

/-- The endpoint that an instance reads is the declared one. -/
theorem readEndpointProperty_declared (sameTopology : SameTopology db later) (i : ι)
    {channel : Text} {base : SocketProperty}
    (declares : DeclaresEndpoint db (instances i).fServiceName channel base) :
    (instances i).endpointKey channel ∈ (instances i).readEndpoints later ∧
      (instances i).readEndpointProperty later ((instances i).endpointKey channel) =
        some { base with name := channel } := by
  have standard := assembly.standard i
  have same := lookup_serviceEndpointKey sameTopology (instances i).fServiceName channel
  have stored := (mem_of_lookup_eq same).mpr declares.stored
  rw [← endpointKey_eq standard] at same stored
  constructor
  · exact (mem_readEndpoints (assembly.name i).serviceName.plain standard).mpr
      ⟨channel, rfl, stored⟩
  · rw [readEndpointProperty_endpointKey, hgetall_congr same, endpointKey_eq standard,
      declares.read, Option.map_some]

/-- And it reads no other ones. -/
theorem declared_of_mem_readEndpoints (sameTopology : SameTopology db later) (i : ι)
    {endpoint : Text} (member : endpoint ∈ (instances i).readEndpoints later) :
    ∃ channel base, endpoint = (instances i).endpointKey channel ∧
      DeclaresEndpoint db (instances i).fServiceName channel base := by
  have standard := assembly.standard i
  rcases (mem_readEndpoints (assembly.name i).serviceName.plain standard).mp member with
    ⟨channel, rfl, stored⟩
  rw [endpointKey_eq standard] at stored
  rcases assembly.readable i channel ((mem_of_lookup_eq
    (lookup_serviceEndpointKey sameTopology _ channel)).mp stored) with ⟨base, declares⟩
  exact ⟨channel, base, rfl, declares⟩

/-- Reading the channels does not fail, whatever links are known. -/
theorem exists_readChannels_eq (sameTopology : SameTopology db later) (i : ι)
    (known : Links) : ∃ read, ((instances i).knowing known).readChannels later = some read := by
  let same (current : TopologyConfig) : Prop := ∃ bind connect, current =
    { (instances i).knowing known with fBindChannels := bind, fConnectChannels := connect }
  have added {current : TopologyConfig} (holds : same current) (sp : SocketProperty) :
      same (current.addChannel sp) := by
    rcases holds with ⟨bind, connect, rfl⟩
    exact addChannel_eq
      { (instances i).knowing known with fBindChannels := bind, fConnectChannels := connect } sp
  have options := @Transition.exists_foldlM _ _ addOption same ((instances i).knowing known)
    ((instances i).knowing known).connectConfig
    (by
      intro current child member holds
      rcases assembly.options i child member with ⟨sp, made, -⟩
      exact ⟨_, by rw [addOption, made, Option.map_some], added holds sp⟩)
    ⟨_, _, rfl⟩
  rcases options with ⟨withOptions, folded, holds⟩
  have endpoints := @Transition.exists_foldlM _ _ (addEndpoint · later) same withOptions
    ((instances i).readEndpoints later)
    (by
      intro current endpoint member holds
      rcases assembly.declared_of_mem_readEndpoints sameTopology i member with
        ⟨channel, base, rfl, declares⟩
      have read := (assembly.readEndpointProperty_declared sameTopology i declares).2
      have here : current.addEndpoint later ((instances i).endpointKey channel) =
          some (current.addChannel { base with name := channel }) := by
        rcases holds with ⟨bind, connect, rfl⟩
        exact congrArg (Option.map _) read
      exact ⟨_, here, added holds _⟩)
    holds
  rcases endpoints with ⟨read, foldedEndpoints, -⟩
  apply Exists.intro read
  rw [readChannels_eq_foldlM, folded, Option.bind_some]
  rcases holds with ⟨bind, connect, rfl⟩
  exact foldedEndpoints

/-- The channels an instance reads are those of its endpoints and options. -/
theorem exists_readChannels (untouched : Untouched instances db later) (i : ι) :
    ∃ bind connect, (instances i).readChannels later =
        some { instances i with fBindChannels := bind, fConnectChannels := connect } ∧
      Sorted { instances i with fBindChannels := bind, fConnectChannels := connect } ∧
      AllChannels { instances i with fBindChannels := bind, fConnectChannels := connect }
        (ChannelOf db (instances i).fServiceName) ∧
      ∀ name base, DeclaresEndpoint db (instances i).fServiceName name base →
        base.method = "bind".toList → name ∈ bind := by
  have sameTopology := assembly.sameTopology untouched
  have readable : ∃ read, (instances i).readChannels later = some read :=
    assembly.exists_readChannels_eq sameTopology i (instances i).fLinks
  rcases readable with ⟨read, readEq⟩
  have noChannel (name : Text) (sp : SocketProperty) :
      ¬ ((instances i).fBindChannels.lookup name = some sp ∨
        (instances i).fConnectChannels.lookup name = some sp) := by
    simp [assembly.noBind i, assembly.noConnect i]
  have spec := @readChannels_spec _ _ (ChannelOf db (instances i).fServiceName) _ readEq
    (fun name sp found => absurd found (noChannel name sp))
    (by
      intro child member sp made
      rcases assembly.options i child member with ⟨sp', made', notBind⟩
      cases made.symm.trans made'
      have name := (connectChannel_spec made).1
      constructor
      · rfl
      · intro isBind
        rcases Option.map_eq_some_iff.mp made with ⟨known, -, rfl⟩
        have method : "connect".toList = "bind".toList := isBind
        exact absurd method (by decide)
      · intro _
        rw [name]
        exact notBind)
    (by
      intro endpoint member sp property
      rcases assembly.declared_of_mem_readEndpoints sameTopology i member with
        ⟨channel, base, rfl, declares⟩
      rw [(assembly.readEndpointProperty_declared sameTopology i declares).2] at property
      cases property
      constructor
      · rfl
      · intro isBind
        exact ⟨base, declares, isBind, rfl⟩
      · intro isConnect other otherDeclares
        cases declares.unique otherDeclares
        rw [show base.method = "connect".toList from isConnect]
        decide)
  rcases spec with ⟨⟨bind, connect, rfl⟩, all⟩
  apply Exists.intro bind
  apply Exists.intro connect
  constructor
  · exact readEq
  constructor
  · apply readChannels_sorted _ readEq
    constructor
    · exact fun name sp found => absurd (Or.inl found) (noChannel name sp)
    · exact fun name sp found => absurd (Or.inr found) (noChannel name sp)
  constructor
  · exact all
  · intro name base declares isBind
    rcases assembly.readEndpointProperty_declared sameTopology i declares with ⟨member, property⟩
    exact (readChannels_complete readEq member property).1 isBind

/-- What is published for a channel with peers is below the key of the instance: a link
joins the channel, so it is an endpoint. -/
theorem region_of_mem_writeChannel (i : ι) (sameService : config.fServiceName =
      (instances i).fServiceName)
    (recorded : Recorded config.fServiceName links config.fLinks) {registry : Db}
    {sp : SocketProperty} {command : Command}
    (written : command ∈ (instances i).writeChannel sp (config.peers registry sp.name)) :
    Region (instances i) command.key := by
  have standard := assembly.standard i
  rw [writeChannel] at written
  split at written
  · cases written
  · rename_i nonempty
    rcases List.exists_mem_of_ne_nil _ nonempty with ⟨peer, isPeer⟩
    rw [peers, mem_sortUnique, contributedPeers, List.mem_flatMap] at isPeer
    rcases isPeer with ⟨entry, inLinks, contributed⟩
    have separate := assembly.separate i
    rw [← sameService] at separate
    rw [separate.linkPeers_eq recorded registry sp.name inLinks] at contributed
    rcases separate.near recorded (mem_ordered.mp inLinks) with ⟨-, -, -, -, link, member, joins⟩
    have sameChannel : entry.2.myChannel = sp.name := by
      by_contra differs
      rw [if_neg differs] at contributed
      cases contributed
    rcases assembly.endpoints.ends member joins with ⟨base, -, declares, -⟩
    have name : ChannelName sp.name := by
      apply assembly.channelName i
      rw [← sameService, ← sameChannel]
      exact declares.stored
    simp only [List.mem_cons, List.not_mem_nil, or_false] at written
    rw [channelKey_eq standard, peerListKey_instanceChannelKey standard] at written
    rcases written with rfl | rfl | rfl | rfl
    · exact region_instanceChannelKey name
    · exact region_instanceChannelKey name
    · exact region_instancePeerKey sp.name
    · exact region_instancePeerKey sp.name

/-- `Initialize` does not throw, whatever the other instances have written: the
instance then knows the topology, and the commands it has queued write below its key. -/
theorem exists_initializeTopology (untouched : Untouched instances db later) (i : ι) :
    ∃ current configured, (instances i).initializeTopology later = (current, some configured) ∧
      Described links db (instances i) current ∧ Connects db (instances i) current ∧
      ∀ record ∈ configured, ∀ command ∈ (instances i).writeChannel record.sp record.peers,
        Region (instances i) command.key := by
  rcases assembly.exists_readChannels untouched i with
    ⟨bind, connect, readEq, sorted, all, complete⟩
  have standard := assembly.standard i
  have service := (assembly.name i).serviceName
  rcases collectLinks_spec (⟨standard.top, standard.separator⟩ : { instances i with
      fBindChannels := bind, fConnectChannels := connect : TopologyConfig }.Standard)
    ⟨service.part, service.commaFree, service.plain⟩
    (assembly.declares_later (assembly.sameTopology untouched))
    (by rw [assembly.noLinks i]; exact recorded_empty _ _) with ⟨fLinks, collects, recorded, -⟩
  generalize currentEq : ({ instances i with
    fBindChannels := bind, fConnectChannels := connect, fLinks := fLinks } : TopologyConfig) =
      current at collects
  have initialized : (instances i).initializeChannels later =
      some (current.publishChannels later current.channelList) := by
    rw [initializeChannels, readEq, Option.bind_eq_bind, Option.bind_some, collects]
    rfl
  have published := @publishChannels_spec current later current.channelList
  generalize resultEq : current.publishChannels later current.channelList = result
    at initialized published
  have allCurrent : current.AllChannels (ChannelOf db (instances i).fServiceName) := by
    subst currentEq
    exact all
  have sortedCurrent : current.Sorted := by
    subst currentEq
    exact ⟨sorted.bind, sorted.connect⟩
  have recordedCurrent : Recorded current.fServiceName links current.fLinks := by
    subst currentEq
    exact recorded
  have sameService : current.fServiceName = (instances i).fServiceName := by
    subst currentEq
    rfl
  have known : current.AllChannels fun _ sp =>
      sp.method = "bind".toList ∨ sp.method = "connect".toList := by
    rintro name sp (found | found)
    · exact Or.inl (sortedCurrent.bind name sp found)
    · exact Or.inr (sortedCurrent.connect name sp found)
  have allResult := published.all _ allCurrent
    (by
      intro record member
      rcases published.record record member with ⟨sp, inChannels, spEq, -⟩
      rcases allCurrent.of_mem_channelList inChannels with ⟨name, channelOf⟩
      cases channelOf.sameName
      rw [spEq, configureChannel_name]
      constructor
      · exact configureChannel_name sp
      · rw [(configureChannel_spec sp).1, configureChannel_waitForPeerConnection]
        exact channelOf.bind
      · rw [(configureChannel_spec sp).1]
        exact channelOf.connect)
  have sortedResult := published.sorted sortedCurrent
    (by
      intro record member
      rcases published.record record member with ⟨sp, inChannels, spEq, -⟩
      rcases known.of_mem_channelList inChannels with ⟨-, method⟩
      rw [spEq, (configureChannel_spec sp).1]
      exact method)
  apply Exists.intro result.1
  apply Exists.intro result.2.2
  constructor
  · exact (instances i).initializeTopology_of_some later initialized
  constructor
  · constructor
    · rcases published.identity with ⟨bind', connect', keys, same⟩
      subst currentEq
      exact ⟨bind', connect', fLinks, keys, same⟩
    · intro name sp found
      have channelOf := allResult name sp (Or.inl found)
      exact ⟨channelOf.sameName, channelOf.bind (sortedResult.bind name sp found)⟩
    · intro name base declares isBind
      rw [← resultEq]
      apply mem_fBindChannels_publishChannels
      subst currentEq
      exact complete name base declares isBind
    · rcases published.identity with ⟨bind', connect', keys, same⟩
      rw [same, ← sameService]
      exact recordedCurrent
  constructor
  · intro name sp found
    have channelOf := allResult name sp (Or.inr found)
    exact ⟨channelOf.sameName, channelOf.connect (sortedResult.connect name sp found)⟩
  · intro record member command written
    rcases published.record record member with ⟨sp, -, spEq, peersEq⟩
    have sameName : record.sp.name = sp.name := by rw [spEq, configureChannel_name]
    rw [peersEq, ← sameName] at written
    exact assembly.region_of_mem_writeChannel i sameService recordedCurrent written

end Assembly

end NestDaq.Topology
