import NestDaq.Topology.Deployment

/-!
# Initialization of a deployment

Every instance of a deployment finds the same topology at its turn, whatever
the order of the turns, and leaves the final properties and the peers of its
channels in the registry, where the later ones do not touch them.
-/

namespace NestDaq.Topology

open NestDaq.Store
open NestDaq.Registry
open TopologyConfig

/-- All instances run `Initialize`, in the given order. -/
def initializeAll : List TopologyConfig → Db → Option (List TopologyConfig × Db)
  | [], db => some ([], db)
  | config :: rest, db => do
      let (config', db', _) ← config.initializeChannels db
      let (rest', last) ← initializeAll rest db'
      return (config' :: rest', last)

/-- The final properties of a channel of an instance, in terms of its endpoint and
its peers. -/
structure Settled (links : List LinkKey) (instances : List TopologyConfig) (db : Db)
    (config : TopologyConfig) (name : Text) (sp : SocketProperty) (peers : List Text) : Prop where
  peersOf : PeersOf links instances config.fServiceName name peers
  endpoint : config.endpointKey name ∈ db
  sameName : sp.name = name
  read : ∃ base, toSocketProperty (hgetall db (config.endpointKey name)) = some base ∧
    sp.method = base.method ∧ sp.autoSubChannel = base.autoSubChannel ∧
    (sp.numSockets = if base.autoSubChannel then base.numSockets + peers.length
      else base.numSockets) ∧
    (base.method ≠ "bind".toList → sp.address = base.address)

/-- What a registry holds of one channel of an instance. -/
structure Holds (final : Db) (config : TopologyConfig) (sp : SocketProperty)
    (peers : List Text) : Prop where
  listed : lrange final (instancePeerKey config.fServiceName config.fId sp.name) = peers
  properties : peers ≠ [] → ∀ field,
    hget final (instanceChannelKey config.fServiceName config.fId sp.name) (Field.text field) =
      some (fieldText sp field)

/-- An instance after `Initialize`, with the registry at any later time. -/
structure Initialized (links : List LinkKey) (instances : List TopologyConfig) (db : Db)
    (config config' : TopologyConfig) (final : Db) : Prop where
  identity : ∃ bind connect fLinks keys, config' = { config with
    fBindChannels := bind, fConnectChannels := connect, fLinks := fLinks, fRegisteredKeys := keys }
  sorted : config'.Sorted
  settled : ∀ name sp, config'.fBindChannels.lookup name = some sp ∨
    config'.fConnectChannels.lookup name = some sp →
      ∃ peers, Settled links instances db config name sp peers ∧ Holds final config sp peers
  complete : ∀ name, config.endpointKey name ∈ db → ∀ base,
    toSocketProperty (hgetall db (config.endpointKey name)) = some base →
      (base.method = "bind".toList → name ∈ config'.fBindChannels) ∧
      (base.method = "connect".toList → name ∈ config'.fConnectChannels)

theorem Holds.congr {first second : Db} {config : TopologyConfig} {sp : SocketProperty}
    {peers : List Text} (holds : Holds first config sp peers)
    (same : ∀ key, area config.fServiceName config.fId channelPrefix <+: key →
      second.lookup key = first.lookup key) : Holds second config sp peers := by
  have channelArea := area_prefix_instanceChannelKey config.fServiceName config.fId sp.name
  constructor
  · rw [lrange_congr (same _ (by
      rw [instancePeerKey_eq]; exact channelArea.trans (List.prefix_append _ _)))]
    exact holds.listed
  · intro nonempty field
    rw [hget_congr (same _ channelArea)]
    exact holds.properties nonempty field

theorem Initialized.congr {links : List LinkKey} {instances : List TopologyConfig}
    {db first second : Db} {config config' : TopologyConfig}
    (initialized : Initialized links instances db config config' first)
    (same : ∀ key, area config.fServiceName config.fId channelPrefix <+: key →
      second.lookup key = first.lookup key) :
    Initialized links instances db config config' second := by
  refine ⟨initialized.identity, initialized.sorted, fun name sp found => ?_, initialized.complete⟩
  obtain ⟨peers, settled, holds⟩ := initialized.settled name sp found
  exact ⟨peers, settled, holds.congr same⟩

/-- What `Initialize` computes for a channel from its endpoint. -/
theorem configureChannel_spec {config : TopologyConfig} {db : Db} (sp : SocketProperty) :
    (config.configureChannel db sp).method = sp.method ∧
      (config.configureChannel db sp).autoSubChannel = sp.autoSubChannel ∧
      ((config.configureChannel db sp).numSockets =
        if sp.autoSubChannel then sp.numSockets + (config.contributedPeers db sp.name).length
        else sp.numSockets) ∧
      (sp.method ≠ "bind".toList → (config.configureChannel db sp).address = sp.address) := by
  have counted : (config.countPeers db sp).method = sp.method ∧
      (config.countPeers db sp).autoSubChannel = sp.autoSubChannel ∧
      ((config.countPeers db sp).numSockets =
        if sp.autoSubChannel then sp.numSockets + (config.contributedPeers db sp.name).length
        else sp.numSockets) ∧ (config.countPeers db sp).address = sp.address := by
    unfold countPeers
    split
    · rename_i auto
      simp [auto]
    · rename_i notAuto
      simp [notAuto]
  obtain ⟨method, auto, sockets, address⟩ := counted
  unfold configureChannel
  simp only
  split
  · rename_i uds
    simp only [method, Bool.and_eq_true, decide_eq_true_eq] at uds
    exact ⟨method, auto, sockets, fun notBind => absurd uds.1.2 notBind⟩
  · exact ⟨method, auto, sockets, fun _ => address⟩

/-! ## One instance -/

/-- A channel as it is read from its endpoint. -/
structure FromEndpoint (db : Db) (config : TopologyConfig) (name : Text) (sp : SocketProperty) :
    Prop where
  endpoint : config.endpointKey name ∈ db
  read : ∃ base, toSocketProperty (hgetall db (config.endpointKey name)) = some base ∧
    sp = { base with name := name }

theorem FromEndpoint.sameName {db : Db} {config : TopologyConfig} {name : Text}
    {sp : SocketProperty} (fromEndpoint : FromEndpoint db config name sp) : sp.name = name := by
  obtain ⟨base, -, rfl⟩ := fromEndpoint.read
  rfl

theorem FromEndpoint.unique {db : Db} {config : TopologyConfig} {name : Text}
    {first second : SocketProperty} (firstRead : FromEndpoint db config name first)
    (secondRead : FromEndpoint db config name second) : first = second := by
  obtain ⟨base, found, rfl⟩ := firstRead.read
  obtain ⟨base', found', rfl⟩ := secondRead.read
  rw [found] at found'
  rw [Option.some.inj found']

/-- Channels read from endpoints have different names: an endpoint has one method. -/
theorem nodup_channelList {db : Db} {config current : TopologyConfig} (sorted : current.Sorted)
    (all : current.AllChannels (FromEndpoint db config)) :
    (current.channelList.map (·.name)).Nodup := by
  have names (channels : MQChannel) (inChannels : ∀ name sp, channels.lookup name = some sp →
      FromEndpoint db config name sp) :
      ((ordered channels).map (·.2)).map (·.name) = (ordered channels).map Prod.fst := by
    rw [List.map_map]
    refine List.map_congr_left fun entry member => ?_
    exact (inChannels entry.1 entry.2 (mem_ordered.mp member)).sameName
  rw [channelList, List.map_append, names _ fun name sp found => all name sp (Or.inl found),
    names _ fun name sp found => all name sp (Or.inr found)]
  refine List.nodup_append'.mpr ⟨nodup_keys_ordered _, nodup_keys_ordered _, ?_⟩
  intro name inBind inConnect
  obtain ⟨sp, bound⟩ := Option.isSome_iff_exists.mp
    (AList.lookup_isSome.mpr (mem_keys_ordered.mp inBind))
  obtain ⟨sp', connected⟩ := Option.isSome_iff_exists.mp
    (AList.lookup_isSome.mpr (mem_keys_ordered.mp inConnect))
  have same := (all name sp (Or.inl bound)).unique (all name sp' (Or.inr connected))
  have methods := (sorted.bind name sp bound).symm.trans
    (same ▸ sorted.connect name sp' connected)
  exact absurd methods (by decide)

section Instance

variable {links : List LinkKey} {instances : List TopologyConfig} {db later : Db}
  {config : TopologyConfig}

/-- The channels an instance reads are those of its endpoints before anything ran. -/
theorem readChannels_fromEndpoint (deployment : Deployment links instances db)
    (member : config ∈ instances) (agrees : Agrees instances db later)
    {read : TopologyConfig} (readEq : config.readChannels later = some read) :
    (∃ bind connect, read = { config with fBindChannels := bind, fConnectChannels := connect }) ∧
      read.Sorted ∧ read.AllChannels (FromEndpoint db config) ∧
      ∀ name, config.endpointKey name ∈ db → ∀ base,
        toSocketProperty (hgetall db (config.endpointKey name)) = some base →
          (base.method = "bind".toList → name ∈ read.fBindChannels) ∧
          (base.method = "connect".toList → name ∈ read.fConnectChannels) := by
  have fresh := deployment.fresh config member
  have sameHash (channel : Text) : hgetall later (config.endpointKey channel) =
      hgetall db (config.endpointKey channel) :=
    hgetall_congr (deployment.lookup_endpointKey agrees member channel)
  have spec := @readChannels_spec _ _ (FromEndpoint db config) _ readEq ?_ ?_ ?_
  · refine ⟨spec.1, readChannels_sorted ?_ readEq, spec.2, ?_⟩
    · constructor <;> intro name sp found
      · simp [fresh.noBind] at found
      · simp [fresh.noConnect] at found
    · intro name inDb base found
      have inLater := (mem_of_lookup_eq (deployment.lookup_endpointKey agrees member name)).mpr inDb
      have property : config.readEndpointProperty later (config.endpointKey name) =
          some { base with name := name } := by
        rw [readEndpointProperty_endpointKey, sameHash, found, Option.map_some]
      exact readChannels_complete readEq
        ((mem_readEndpoints fresh.name.serviceName.plain fresh.standard).mpr ⟨name, rfl, inLater⟩)
        property
  · intro name sp found
    simp [fresh.noBind, fresh.noConnect] at found
  · intro child inOption
    simp [fresh.noOption] at inOption
  · intro endpoint inEndpoints sp property
    obtain ⟨channel, rfl, inLater⟩ :=
      (mem_readEndpoints fresh.name.serviceName.plain fresh.standard).mp inEndpoints
    rw [readEndpointProperty_endpointKey, sameHash, Option.map_eq_some_iff] at property
    obtain ⟨base, found, rfl⟩ := property
    exact ⟨(mem_of_lookup_eq (deployment.lookup_endpointKey agrees member channel)).mp inLater,
      base, found, rfl⟩

/-- An instance that has read its endpoints and links, and has not yet published. -/
structure Collected (links : List LinkKey) (db : Db) (config current : TopologyConfig) : Prop where
  identity : ∃ bind connect fLinks, current = { config with
    fBindChannels := bind, fConnectChannels := connect, fLinks := fLinks }
  sorted : current.Sorted
  fromEndpoints : current.AllChannels (FromEndpoint db config)
  recorded : Recorded config.fServiceName links current.fLinks
  known : ∀ link ∈ links, link.ReadBy config.fServiceName →
    (link.seenBy config.fServiceName []).spelling.pairName ∈ current.fLinks
  complete : ∀ name, config.endpointKey name ∈ db → ∀ base,
    toSocketProperty (hgetall db (config.endpointKey name)) = some base →
      (base.method = "bind".toList → name ∈ current.fBindChannels) ∧
      (base.method = "connect".toList → name ∈ current.fConnectChannels)

/-- The two reading phases of `Initialize`. -/
theorem initializeChannels_collected (deployment : Deployment links instances db)
    (member : config ∈ instances) (agrees : Agrees instances db later)
    {config' : TopologyConfig} {later' : Db} {configured : List Configured}
    (initialized : config.initializeChannels later = some (config', later', configured)) :
    ∃ current, Collected links db config current ∧
      current.Publishes later current.channelList (config', later', configured) := by
  have fresh := deployment.fresh config member
  obtain ⟨read, current, readEq, collectedEq, published⟩ := initializeChannels_spec initialized
  obtain ⟨⟨bind, connect, rfl⟩, sorted, all, complete⟩ :=
    readChannels_fromEndpoint deployment member agrees readEq
  have name : ServiceName config.fServiceName :=
    ⟨fresh.name.serviceName.part, fresh.name.serviceName.commaFree, fresh.name.serviceName.plain⟩
  obtain ⟨fLinks, collects, recorded, known⟩ := collectLinks_spec
    (⟨fresh.standard.top, fresh.standard.separator⟩ : { config with
      fBindChannels := bind, fConnectChannels := connect : TopologyConfig }.Standard)
    name (deployment.declares_later agrees) (by
      rw [fresh.noLinks]
      exact recorded_empty _ _)
  obtain rfl := Option.some.inj (collects.symm.trans collectedEq)
  exact ⟨{ config with fBindChannels := bind, fConnectChannels := connect, fLinks := fLinks },
    ⟨⟨_, _, _, rfl⟩, ⟨sorted.bind, sorted.connect⟩, all, recorded, known, complete⟩, published⟩

namespace Collected

variable {current : TopologyConfig} (collected : Collected links db config current)

include collected

theorem sameService : current.fServiceName = config.fServiceName := by
  obtain ⟨bind, connect, fLinks, rfl⟩ := collected.identity
  rfl

theorem sameId : current.fId = config.fId := by
  obtain ⟨bind, connect, fLinks, rfl⟩ := collected.identity
  rfl

theorem standard (fresh : Fresh config) : current.Standard := by
  obtain ⟨bind, connect, fLinks, rfl⟩ := collected.identity
  exact ⟨fresh.standard.top, fresh.standard.separator⟩

/-- What is published are keys of the instance. -/
theorem ownKey (deployment : Deployment links instances db) (member : config ∈ instances)
    {key : Text} (published : key ∈ current.publishedKeys current.channelList) :
    OwnKey config key := by
  have standard := collected.standard (deployment.fresh config member)
  obtain ⟨sp, inChannels, isKey⟩ := List.mem_flatMap.mp published
  obtain ⟨name, fromEndpoint⟩ := collected.fromEndpoints.of_mem_channelList inChannels
  refine ⟨name, deployment.channelName member fromEndpoint.endpoint, ?_⟩
  rw [fromEndpoint.sameName, channelKey_eq standard, peerListKey_instanceChannelKey standard,
    collected.sameService, collected.sameId] at isKey
  simpa using isKey

/-- A channel configured by a registry that differs at most in keys that the
instances write is settled by the deployment. -/
theorem settled (deployment : Deployment links instances db) (member : config ∈ instances)
    {registry : Db} (agrees : Agrees instances db registry) {sp : SocketProperty}
    (fromEndpoint : FromEndpoint db config sp.name sp) :
    Settled links instances db config sp.name (current.configureChannel registry sp)
      (current.peers registry sp.name) := by
  obtain ⟨peersOf, counted⟩ := deployment.peersOf_peers agrees member
    (collected.standard (deployment.fresh config member)) collected.sameService collected.recorded
    collected.known sp.name
  obtain ⟨method, auto, sockets, address⟩ := @configureChannel_spec current registry sp
  obtain ⟨base, found, spEq⟩ := fromEndpoint.read
  have sameMethod : sp.method = base.method := by rw [spEq]
  refine ⟨peersOf, fromEndpoint.endpoint, configureChannel_name sp, base, found,
    method.trans sameMethod, ?_, ?_, ?_⟩
  · rw [auto, spEq]
  · rw [sockets, counted, spEq]
  · intro notBind
    rw [address (sameMethod ▸ notBind), spEq]

variable {result : TopologyConfig × Db × List Configured}

/-- Every record of `Initialize` is that of an endpoint. -/
theorem origin (published : current.Publishes later current.channelList result)
    {record : Configured} (inRecords : record ∈ result.2.2) :
    ∃ sp ∈ current.channelList, FromEndpoint db config record.sp.name sp ∧
      record.sp.method = sp.method ∧ record.sp = current.configureChannel record.registry sp ∧
      record.peers = current.peers record.registry record.sp.name := by
  rcases published.record record inRecords with ⟨sp, inChannels, spEq, peersEq⟩
  rcases collected.fromEndpoints.of_mem_channelList inChannels with ⟨name, fromEndpoint⟩
  cases fromEndpoint.sameName
  have sameName : record.sp.name = sp.name := by rw [spEq, configureChannel_name]
  have sameMethod : record.sp.method = sp.method := by rw [spEq, (configureChannel_spec sp).1]
  rw [sameName]
  exact ⟨sp, inChannels, fromEndpoint, sameMethod, spEq, peersEq⟩

/-- In a deployment it is settled. -/
theorem settled_record (deployment : Deployment links instances db) (member : config ∈ instances)
    (agrees : Agrees instances db later)
    (published : current.Publishes later current.channelList result) {record : Configured}
    (inRecords : record ∈ result.2.2) :
    Settled links instances db config record.sp.name record.sp record.peers := by
  rcases collected.origin published inRecords with ⟨sp, -, fromEndpoint, -, spEq, peersEq⟩
  have sameName := fromEndpoint.sameName
  have agreesHere : Agrees instances db record.registry := by
    intro key notOwn
    rw [published.kept record inRecords key fun written =>
      notOwn config member (collected.ownKey deployment member written), agrees key notOwn]
  rw [← sameName] at fromEndpoint
  have here := collected.settled deployment member agreesHere fromEndpoint
  rwa [← spEq, sameName, ← peersEq] at here

theorem result_sorted (published : current.Publishes later current.channelList result) :
    result.1.Sorted := by
  refine published.sorted collected.sorted fun record inRecords => ?_
  obtain ⟨sp, inChannels, -, method, -⟩ := collected.origin published inRecords
  have known : current.AllChannels fun _ sp =>
      sp.method = "bind".toList ∨ sp.method = "connect".toList := by
    rintro name sp (found | found)
    · exact Or.inl (collected.sorted.bind name sp found)
    · exact Or.inr (collected.sorted.connect name sp found)
  obtain ⟨-, isKnown⟩ := known.of_mem_channelList inChannels
  rwa [method]

theorem mem_names {name : Text} {sp : SocketProperty}
    (found : current.fBindChannels.lookup name = some sp ∨
      current.fConnectChannels.lookup name = some sp) :
    name ∈ current.channelList.map (·.name) := by
  refine List.mem_map.mpr ⟨sp, ?_, (collected.fromEndpoints name sp found).sameName⟩
  rcases found with found | found
  · exact List.mem_append_left _ (List.mem_map_of_mem (mem_ordered.mpr found))
  · exact List.mem_append_right _ (List.mem_map_of_mem (mem_ordered.mpr found))

/-- A name of a channel has a record, which is stored under its method. -/
theorem exists_record (published : current.Publishes later current.channelList result)
    {name : Text} (isName : name ∈ current.channelList.map (·.name)) :
    ∃ record ∈ result.2.2, record.sp.name = name ∧
      (if record.sp.method = "bind".toList then result.1.fBindChannels
        else result.1.fConnectChannels).lookup name = some record.sp := by
  have distinct := nodup_channelList collected.sorted collected.fromEndpoints
  rw [← published.names] at isName
  obtain ⟨record, inRecords, rfl⟩ := List.mem_map.mp isName
  exact ⟨record, inRecords, rfl, published.stored distinct record inRecords⟩

/-- The channels an instance ends up with are the recorded ones. -/
theorem record_of_lookup (published : current.Publishes later current.channelList result)
    {name : Text} {sp : SocketProperty} (found : result.1.fBindChannels.lookup name = some sp ∨
      result.1.fConnectChannels.lookup name = some sp) :
    ∃ record ∈ result.2.2, record.sp = sp ∧ record.sp.name = name := by
  have distinct := nodup_channelList collected.sorted collected.fromEndpoints
  have isName : name ∈ current.channelList.map (·.name) := by
    by_contra absent
    obtain ⟨bindSame, connectSame⟩ := published.others distinct name absent
    rw [bindSame, connectSame] at found
    exact absent (collected.mem_names found)
  obtain ⟨record, inRecords, rfl, stored⟩ := collected.exists_record published isName
  refine ⟨record, inRecords, ?_, rfl⟩
  -- The endpoint of the name decides the method, and the method decides the map.
  have methods : result.1.AllChannels fun name sp =>
      ∃ sp', FromEndpoint db config name sp' ∧ sp.method = sp'.method := by
    refine published.all _ (fun name sp found =>
      ⟨sp, collected.fromEndpoints name sp found, rfl⟩) fun record inRecords => ?_
    obtain ⟨sp', -, fromEndpoint, method, -⟩ := collected.origin published inRecords
    exact ⟨sp', fromEndpoint, method⟩
  have sorted := collected.result_sorted published
  obtain ⟨first, firstRead, firstMethod⟩ := methods record.sp.name sp found
  obtain ⟨second, -, secondRead, secondMethod, -⟩ := collected.origin published inRecords
  have sameMethod : record.sp.method = sp.method := by
    rw [firstMethod, secondMethod, firstRead.unique secondRead]
  rw [sameMethod] at stored
  rcases found with found | found
  · rw [if_pos (sorted.bind _ _ found), found] at stored
    exact (Option.some.inj stored).symm
  · rw [if_neg (by rw [sorted.connect _ _ found]; decide), found] at stored
    exact (Option.some.inj stored).symm

end Collected

/-- One instance runs `Initialize` after some of the others: its channels are those
of its endpoints, settled by its peers in the deployment, and only its own keys
change. -/
theorem initializeChannels_initialized (deployment : Deployment links instances db)
    (member : config ∈ instances) (agrees : Agrees instances db later)
    (unpublished : ∀ key ∈ later, ¬ area config.fServiceName config.fId channelPrefix <+: key)
    {config' : TopologyConfig} {later' : Db} {configured : List Configured}
    (initialized : config.initializeChannels later = some (config', later', configured)) :
    Initialized links instances db config config' later' ∧
      ∀ key, ¬ OwnKey config key → later'.lookup key = later.lookup key := by
  have fresh := deployment.fresh config member
  obtain ⟨current, collected, published⟩ :=
    initializeChannels_collected deployment member agrees initialized
  have standard := collected.standard fresh
  have distinct := nodup_channelList collected.sorted collected.fromEndpoints
  have sorted := collected.result_sorted published
  have registry : later' =
    execAll later (configured.flatMap fun record => current.writeChannel record.sp record.peers) :=
    published.registry
  constructor
  · refine ⟨?_, sorted, fun name sp found => ?_, fun name inDb base found => ?_⟩
    · obtain ⟨bind, connect, fLinks, isCurrent⟩ := collected.identity
      obtain ⟨bind', connect', keys, isResult⟩ := published.identity
      exact ⟨bind', connect', fLinks, keys, by rw [isCurrent] at isResult; exact isResult⟩
    · obtain ⟨record, inRecords, rfl, rfl⟩ :=
        collected.record_of_lookup published found
      have settled := collected.settled_record deployment member agrees published inRecords
      have parts : ∀ record ∈ configured, Part record.sp.name := by
        intro record inRecords
        obtain ⟨_, -, fromEndpoint, -⟩ := collected.origin published inRecords
        exact (deployment.channelName member fromEndpoint.endpoint).name.part
      obtain ⟨listed, properties⟩ := lookup_writeChannels standard
        (show (configured.map (·.sp.name)).Nodup from published.names ▸ distinct) parts inRecords
        (by
          intro listed
          apply unpublished _ listed
          rw [collected.sameService, collected.sameId, instancePeerKey_eq]
          exact (area_prefix_instanceChannelKey _ _ _).trans (List.prefix_append _ _))
      rw [← registry, collected.sameService, collected.sameId] at listed
      rw [← registry, collected.sameService, collected.sameId] at properties
      exact ⟨record.peers, settled, listed, properties⟩
    · obtain ⟨bindKnown, connectKnown⟩ := collected.complete name inDb base found
      have stored (isName : name ∈ current.channelList.map (·.name)) :
          ∃ sp, (if base.method = "bind".toList then config'.fBindChannels
            else config'.fConnectChannels).lookup name = some sp := by
        obtain ⟨record, inRecords, rfl, stored⟩ := collected.exists_record published isName
        obtain ⟨sp, -, fromEndpoint, method, -⟩ := collected.origin published inRecords
        have same := fromEndpoint.unique ⟨inDb, base, found, rfl⟩
        rw [method, same] at stored
        exact ⟨record.sp, stored⟩
      refine ⟨fun isBind => ?_, fun isConnect => ?_⟩
      · obtain ⟨sp, known⟩ := Option.isSome_iff_exists.mp
          (AList.lookup_isSome.mpr (bindKnown isBind))
        obtain ⟨sp', stored⟩ := stored (collected.mem_names (Or.inl known))
        rw [if_pos isBind] at stored
        exact AList.lookup_isSome.mp (stored ▸ rfl)
      · obtain ⟨sp, known⟩ := Option.isSome_iff_exists.mp
          (AList.lookup_isSome.mpr (connectKnown isConnect))
        obtain ⟨sp', stored⟩ := stored (collected.mem_names (Or.inr known))
        rw [if_neg (by rw [isConnect]; decide)] at stored
        exact AList.lookup_isSome.mp (stored ▸ rfl)
  · intro key notOwn
    rw [registry]
    refine lookup_execAll_of_notMem later _ fun command written same => notOwn ?_
    obtain ⟨record, inRecords, inPipeline⟩ := List.mem_flatMap.mp written
    obtain ⟨sp, inChannels, fromEndpoint, -⟩ := collected.origin published inRecords
    rw [same]
    exact collected.ownKey deployment member
      (key_mem_publishedKeys inPipeline inChannels fromEndpoint.sameName.symm)

/-- Instances that run `Initialize` one after the other find the same topology and
do not touch each other's channels. -/
theorem initializeAll_initialized (deployment : Deployment links instances db)
    {order : List TopologyConfig} (included : ∀ config ∈ order, config ∈ instances)
    (distinct : (order.map fun config => (config.fServiceName, config.fId)).Nodup)
    (agrees : Agrees instances db later)
    (unpublished : ∀ config ∈ order, ∀ key ∈ later,
      ¬ area config.fServiceName config.fId channelPrefix <+: key)
    {order' : List TopologyConfig} {final : Db}
    (run : initializeAll order later = some (order', final)) :
    List.Forall₂ (fun config config' => Initialized links instances db config config' final)
        order order' ∧
      ∀ key, (∀ config ∈ order, ¬ OwnKey config key) → final.lookup key = later.lookup key := by
  induction order generalizing later order' with
  | nil =>
      obtain ⟨rfl, rfl⟩ := Prod.mk.inj (Option.some.inj run)
      exact ⟨List.Forall₂.nil, fun _ _ => rfl⟩
  | cons config rest ih =>
      rw [initializeAll, Option.bind_eq_bind, Option.bind_eq_some_iff] at run
      obtain ⟨⟨config', later', configured⟩, first, run⟩ := run
      rw [Option.bind_eq_bind, Option.bind_eq_some_iff] at run
      obtain ⟨⟨rest', last⟩, others, equal⟩ := run
      obtain ⟨rfl, rfl⟩ := Prod.mk.inj (Option.some.inj equal)
      have member := included config List.mem_cons_self
      rw [List.map_cons, List.nodup_cons] at distinct
      obtain ⟨initialized, kept⟩ := initializeChannels_initialized deployment member agrees
        (unpublished config List.mem_cons_self) first
      -- The areas of the others stay as they are, and so does what is already there.
      have apart {other : TopologyConfig} (inRest : other ∈ rest) {key : Text}
          (there : area other.fServiceName other.fId channelPrefix <+: key) :
          ¬ area config.fServiceName config.fId channelPrefix <+: key := by
        intro here
        obtain ⟨service, instanceId⟩ := eq_of_area (deployment.fresh config member)
          (deployment.fresh other (included other (List.mem_cons_of_mem _ inRest))) here there
        exact distinct.1 (List.mem_map.mpr ⟨other, inRest, by rw [service, instanceId]⟩)
      obtain ⟨initializedRest, keptRest⟩ := ih
        (fun other inRest => included other (List.mem_cons_of_mem _ inRest)) distinct.2
        (fun key notOwn => (kept key (notOwn config member)).trans (agrees key notOwn))
        (fun other inRest key inLater there => by
          have same := kept key fun own => apart inRest there own.area
          exact unpublished other (List.mem_cons_of_mem _ inRest) key
            ((mem_of_lookup_eq same).mp inLater) there)
        others
      refine ⟨List.Forall₂.cons (initialized.congr fun key here => ?_) initializedRest,
        fun key notOwn => ?_⟩
      · exact keptRest key fun other inRest own => apart inRest own.area here
      · rw [keptRest key fun other inRest => notOwn other (List.mem_cons_of_mem _ inRest),
          kept key (notOwn config List.mem_cons_self)]

end Instance

theorem exists_of_forall₂ {α β : Type} {related : α → β → Prop} {first : List α} {second : List β}
    (pairs : List.Forall₂ related first second) :
    (∀ item ∈ first, ∃ other ∈ second, related item other) ∧
      ∀ other ∈ second, ∃ item ∈ first, related item other := by
  induction pairs with
  | nil => simp
  | cons here _ ih =>
      constructor
      · intro item member
        rcases List.mem_cons.mp member with rfl | inRest
        · exact ⟨_, List.mem_cons_self, here⟩
        · obtain ⟨other, inSecond, holds⟩ := ih.1 item inRest
          exact ⟨other, List.mem_cons_of_mem _ inSecond, holds⟩
      · intro other member
        rcases List.mem_cons.mp member with rfl | inRest
        · exact ⟨_, List.mem_cons_self, here⟩
        · obtain ⟨item, inFirst, holds⟩ := ih.2 other inRest
          exact ⟨item, List.mem_cons_of_mem _ inFirst, holds⟩

/-- All instances of a deployment have run `Initialize`, in any order. -/
theorem Deployment.initializeAll {links : List LinkKey}
    {instances order order' : List TopologyConfig}
    {db final : Db} (deployment : Deployment links instances db) (perm : order.Perm instances)
    (run : initializeAll order db = some (order', final)) :
    (∀ config ∈ instances, ∃ config' ∈ order',
      Initialized links instances db config config' final) ∧
      ∀ config' ∈ order', ∃ config ∈ instances,
        Initialized links instances db config config' final := by
  obtain ⟨initialized, -⟩ := initializeAll_initialized deployment
    (fun config member => perm.mem_iff.mp member)
    ((perm.map fun config => (config.fServiceName, config.fId)).nodup_iff.mpr deployment.distinct)
    (fun _ _ => rfl) (fun config member => deployment.unpublished config (perm.mem_iff.mp member))
    run
  obtain ⟨after, before⟩ := exists_of_forall₂ initialized
  refine ⟨fun config member => after config (perm.mem_iff.mpr member), fun config' member => ?_⟩
  obtain ⟨config, inOrder, holds⟩ := before config' member
  exact ⟨config, perm.mem_iff.mp inOrder, holds⟩

end NestDaq.Topology
