import NestDaq.Topology.Exchange

/-!
# Wiring of sub-channels

Between channels that count their peers into their sockets, every connect
channel resolves to one sub-socket of each of its peers, and the connect
channels in the peer list of a bind channel share its sub-sockets one to one:
the sub-socket is chosen by the rank of the connect channel in that list.
-/

namespace NestDaq.Topology

open NestDaq.Store
open NestDaq.Registry
open TopologyConfig

/-- A channel that counts its peers into sub-channels, from no socket of its own. -/
structure AutoSubChannel (base : SocketProperty) : Prop where
  auto : base.autoSubChannel = true
  sockets : base.numSockets = 0
  address : base.address = []

/-- The sub-socket of a bind channel for a connect channel: the one at the rank of
the connect channel among the peers. -/
def assignedSubSocket (service instanceId channel : Text) (peers : List Text) (me : Text) : Text :=
  ((subSocketKeys service instanceId channel peers.length)[peers.idxOf me]?).getD []

/-- An address is that of the sub-socket which the channel behind a peer key has for
a connect channel in its list. -/
def ServedAt (configs : List TopologyConfig) (registry : Db) (me peer address : Text) : Prop :=
  ∃ bind ∈ configs, ∃ channel sp, bind.fBindChannels.lookup channel = some sp ∧
    peer = instanceChannelKey bind.fServiceName bind.fId channel ∧
    me ∈ lrange registry (instancePeerKey bind.fServiceName bind.fId channel) ∧
    address = subSocketAddress registry bind.fServiceName bind.fId
      (assignedSubSocket bind.fServiceName bind.fId channel
        (lrange registry (instancePeerKey bind.fServiceName bind.fId channel)) me)

/-- The wiring of a registry is one to one: every linked bind channel has connect channels
for peers and a socket for each of them, and assigns its sub-sockets to its peers
bijectively, and every linked connect channel resolves to the addresses it is served at by
its peers. -/
structure OneToOne (links : List LinkKey) (instances configs : List TopologyConfig)
    (registry : Db) : Prop where
  bind : ∀ bind ∈ configs, ∀ channel sp, bind.fBindChannels.lookup channel = some sp →
    Linked links bind.fServiceName channel → ∃ peers,
      lrange registry (instancePeerKey bind.fServiceName bind.fId channel) = peers ∧
      PeersOf links instances bind.fServiceName channel peers ∧
      (∀ peer ∈ peers, ∃ connect ∈ configs, ∃ far ∈ connect.fConnectChannels,
        peer = instanceChannelKey connect.fServiceName connect.fId far) ∧
      sp.numSockets = peers.length ∧
      Set.BijOn (assignedSubSocket bind.fServiceName bind.fId channel peers) {key | key ∈ peers}
        {key | ∃ index < peers.length,
          key = instanceSocketKey bind.fServiceName bind.fId channel index}
  connect : ∀ connect ∈ configs, ∃ resolved, connect.resolveConnectAddress registry = .ok resolved ∧
    ∀ channel sp, connect.fConnectChannels.lookup channel = some sp →
      Linked links connect.fServiceName channel → ∃ peers addresses,
        lrange registry (instancePeerKey connect.fServiceName connect.fId channel) = peers ∧
        PeersOf links instances connect.fServiceName channel peers ∧
        List.Forall₂ (ServedAt configs registry
          (instanceChannelKey connect.fServiceName connect.fId channel)) peers addresses ∧
        { sp with address := Text.join addresses [','] } ∈ resolved

theorem bijOn_assignedSubSocket (service instanceId channel : Text) {peers : List Text}
    (sorted : peers.Pairwise (· < ·)) :
    Set.BijOn (assignedSubSocket service instanceId channel peers) {key | key ∈ peers}
      {key | ∃ index < peers.length, key = instanceSocketKey service instanceId channel index} := by
  have bijection := bijOn_rank (sorted.imp ne_of_lt)
    (@nodup_subSocketKeys service instanceId channel peers.length) length_subSocketKeys.symm []
  have keys : {key | key ∈ subSocketKeys service instanceId channel peers.length} =
      {key | ∃ index < peers.length, key = instanceSocketKey service instanceId channel index} :=
    Set.ext fun _ => mem_subSocketKeys
  rw [keys] at bijection
  exact bijection

section Wiring

variable {links : List LinkKey} {instances configs : List TopologyConfig} {db final registry : Db}

/-- The other end of a link at a bind endpoint is a connect endpoint. -/
theorem LinksEndpoints.far_of_bind {kind : SocketProperty → Prop}
    (endpoints : LinksEndpoints links db kind) {service channel : Text} {far : Text × Text}
    {link : LinkKey} (inLinks : link ∈ links) (joins : link.Joins (service, channel) far)
    {base : SocketProperty} (declares : DeclaresEndpoint db service channel base)
    (isBind : base.method = "bind".toList) :
    ∃ connectBase, DeclaresEndpoint db far.1 far.2 connectBase ∧
      connectBase.method = "connect".toList := by
  obtain ⟨bindEnd, connectEnd, bindBase, connectBase, ends, -, connectDeclares, isConnect, -⟩ :=
    endpoints link inLinks
  have sides : far = connectEnd ∨ (service, channel) = connectEnd := by
    rcases joins with ⟨near, rfl⟩ | ⟨near, rfl⟩ <;> rcases ends with ⟨rfl, second⟩ | ⟨rfl, second⟩
    · exact Or.inl second.symm
    · exact Or.inr (near.trans second.symm)
    · exact Or.inr (near.trans second.symm)
    · exact Or.inl second.symm
  rcases sides with rfl | rfl
  · exact ⟨connectBase, connectDeclares, isConnect⟩
  · have same := Option.some.inj (declares.read.symm.trans connectDeclares.read)
    rw [same, isConnect] at isBind
    exact absurd isBind (by decide)

/-- A channel counts its peers only. -/
theorem Settled.numSockets_eq {config : TopologyConfig} (standard : config.Standard)
    {channel : Text} {sp base : SocketProperty} {peers : List Text}
    (settled : Settled links instances db config channel sp peers)
    (declares : DeclaresEndpoint db config.fServiceName channel base)
    (auto : AutoSubChannel base) : sp.numSockets = peers.length := by
  obtain ⟨-, sockets, -⟩ := settled.of_declares standard declares
  rw [sockets, auto.auto, if_pos rfl, auto.sockets, Int.zero_add]

/-- A bind channel offers a connect channel in its list the sub-socket assigned to it. -/
theorem BindPeer.offers {reader bind : TopologyConfig} {me peer channel : Text}
    {sp : SocketProperty} {peers : List Text}
    (bindPeer : BindPeer links instances configs db final AutoSubChannel me peer bind channel sp
      peers)
    (readerStandard : reader.Standard)
    (exchanged : Exchanged links configs final registry fun sp => sp.numSockets.toNat) :
    reader.Offers registry me peer (subSocketAddress registry bind.fServiceName bind.fId
      (assignedSubSocket bind.fServiceName bind.fId channel peers me)) := by
  obtain ⟨base, declares, auto⟩ := bindPeer.kind
  have counted := bindPeer.settled.numSockets_eq bindPeer.standard declares auto
  have exposes := exchanged.exposes bind bindPeer.member channel sp bindPeer.found bindPeer.linked
  rw [counted, Int.toNat_natCast] at exposes
  have nonempty : peers ≠ [] := List.ne_nil_of_mem bindPeer.listed
  have below : peers.idxOf me < (subSocketKeys bind.fServiceName bind.fId channel
      peers.length).length := by
    rw [length_subSocketKeys]
    exact List.idxOf_lt_length_iff.mpr bindPeer.listed
  have assigned : (subSocketKeys bind.fServiceName bind.fId channel peers.length)[peers.idxOf me]? =
      some (assignedSubSocket bind.fServiceName bind.fId channel peers me) := by
    rw [assignedSubSocket, List.getElem?_eq_getElem below, Option.getD_some]
  obtain ⟨bound, read⟩ := (exchanged.marked bind bindPeer.member _
    (area_prefix_instanceChannelKey _ _ channel)).toSocketProperty_eq
      (bindPeer.settled.sameName ▸ bindPeer.holds.properties nonempty)
  refine ⟨⟨{ sp with bound := bound }, (subSocketKeys bind.fServiceName bind.fId channel
    peers.length).map (subSocketAddress registry bind.fServiceName bind.fId), ?_, ?_, ?_, ?_⟩, ?_⟩
  · rw [bindPeer.key, read]
  · rw [bindPeer.key]
    exact exposes.peerAddress_eq readerStandard bindPeer.name bindPeer.channelName
  · rw [bindPeer.key, peerListKey_instanceChannelKey readerStandard,
      exchanged.lrange_eq bindPeer.member bindPeer.settled bindPeer.holds, List.getElem?_map,
      assigned, Option.map_some]
  · intro single
    rw [List.length_map, length_subSocketKeys]
    have some : 0 < peers.length := List.length_pos_of_mem bindPeer.listed
    have few : sp.numSockets ≤ 1 := single
    omega
  · exact exposes.subSocketAddress_ne_nil (List.mem_of_getElem? assigned)

/-- A linked connect channel resolves to the addresses it is served at. -/
theorem Deployment.resolveChannel_served (deployment : Deployment links instances db)
    (endpoints : LinksEndpoints links db AutoSubChannel)
    (after : ∀ config ∈ instances, ∃ config' ∈ configs,
      Initialized links instances db config config' final)
    (exchanged : Exchanged links configs final registry fun sp => sp.numSockets.toNat)
    {config connect : TopologyConfig} (member : config ∈ instances) (inConfigs : connect ∈ configs)
    (initialized : Initialized links instances db config connect final)
    {channel : Text} {sp : SocketProperty}
    (found : connect.fConnectChannels.lookup channel = some sp)
    (linked : Linked links connect.fServiceName channel) :
    hasAddress sp = false ∧ ∃ peers addresses,
      lrange registry (instancePeerKey connect.fServiceName connect.fId channel) = peers ∧
      PeersOf links instances connect.fServiceName channel peers ∧
      List.Forall₂ (ServedAt configs registry
        (instanceChannelKey connect.fServiceName connect.fId channel)) peers addresses ∧
      connect.resolveChannel registry sp =
        .ok { sp with address := Text.join addresses [','] } := by
  have standard := initialized.standard (deployment.fresh config member)
  obtain ⟨peers, base, settled, holds, declares, auto, isConnect, bindPeers⟩ :=
    deployment.connect_peers endpoints after member initialized found linked
  obtain rfl := settled.sameName
  have listed := exchanged.lrange_eq inConfigs settled holds
  have counted := settled.numSockets_eq standard declares auto
  have noAddress : sp.address = [] := by
    obtain ⟨-, -, address⟩ := settled.of_declares standard declares
    rw [address (by rw [isConnect]; decide), auto.address]
  have served : ∀ peer ∈ peers, ∃ address,
      connect.Offers registry (instanceChannelKey connect.fServiceName connect.fId sp.name) peer
        address ∧
      ServedAt configs registry (instanceChannelKey connect.fServiceName connect.fId sp.name) peer
        address := by
    intro peer inPeers
    obtain ⟨bind, bindChannel, bindSp, peersOfBind, bindPeer⟩ := bindPeers peer inPeers
    have listedBind := exchanged.lrange_eq bindPeer.member bindPeer.settled bindPeer.holds
    exact ⟨_, bindPeer.offers standard exchanged, bind, bindPeer.member, bindChannel, bindSp,
      bindPeer.found, bindPeer.key, listedBind ▸ bindPeer.listed, by rw [listedBind]⟩
  choose! chosen offers servedAt using served
  refine ⟨by simp [hasAddress, noAddress], peers, peers.map chosen, listed, settled.peersOf, ?_, ?_⟩
  · exact List.forall₂_map_right_iff.mpr (List.forall₂_same.mpr servedAt)
  · rw [resolveChannel, peerListKey_eq standard, channelKey_eq standard, listed]
    exact resolvePeers_join noAddress counted offers

/-- The peers of a bind channel are connect channels. -/
theorem Deployment.bind_peers (deployment : Deployment links instances db)
    (endpoints : LinksEndpoints links db AutoSubChannel)
    (after : ∀ config ∈ instances, ∃ config' ∈ configs,
      Initialized links instances db config config' final)
    {service channel : Text} {peers : List Text}
    (peersOf : PeersOf links instances service channel peers) {base : SocketProperty}
    (declares : DeclaresEndpoint db service channel base) (isBind : base.method = "bind".toList)
    {peer : Text} (inPeers : peer ∈ peers) :
    ∃ connect ∈ configs, ∃ far ∈ connect.fConnectChannels,
      peer = instanceChannelKey connect.fServiceName connect.fId far := by
  obtain ⟨link, inLinks, ⟨farService, far⟩, joins, config, member, sameService, rfl⟩ :=
    (peersOf.mem_iff peer).mp inPeers
  obtain rfl : config.fServiceName = farService := sameService
  obtain ⟨connectBase, connectDeclares, isConnect⟩ :=
    endpoints.far_of_bind inLinks joins declares isBind
  obtain ⟨connect, inConfigs, initialized⟩ := after config member
  have standard := (deployment.fresh config member).standard
  have stored := connectDeclares.stored
  have read := connectDeclares.read
  rw [← endpointKey_eq standard] at stored read
  refine ⟨connect, inConfigs, far,
    (initialized.complete far stored connectBase read).2 isConnect, ?_⟩
  rw [initialized.sameService, initialized.sameId]

/-- Wiring of sub-channels: once the addresses are exchanged, the wiring is one to
one, whatever the numbers of services and instances and the order in which they
were initialized. -/
theorem wiring_oneToOne (deployment : Deployment links instances db)
    (endpoints : LinksEndpoints links db AutoSubChannel) {order : List TopologyConfig}
    (perm : order.Perm instances) (run : initializeAll order db = some (configs, final))
    (exchanged : Exchanged links configs final registry fun sp => sp.numSockets.toNat) :
    OneToOne links instances configs registry := by
  obtain ⟨after, before⟩ := deployment.initializeAll perm run
  constructor
  · intro bind inConfigs channel sp found linked
    obtain ⟨config, member, initialized⟩ := before bind inConfigs
    have standard := initialized.standard (deployment.fresh config member)
    obtain ⟨peers, settled, holds⟩ := initialized.settled_self (Or.inl found)
    obtain ⟨base, read, method, -⟩ := settled.read
    have declares : DeclaresEndpoint db bind.fServiceName channel base := by
      rw [endpointKey_eq standard] at read
      exact ⟨endpointKey_eq standard channel ▸ settled.endpoint, read⟩
    have isBind : base.method = "bind".toList :=
      method.symm.trans (initialized.sorted.bind channel sp found)
    exact ⟨peers, exchanged.lrange_eq inConfigs settled holds, settled.peersOf,
      fun peer inPeers =>
        deployment.bind_peers endpoints after settled.peersOf declares isBind inPeers,
      settled.numSockets_eq standard declares (endpoints.kind_of_linked linked declares),
      bijOn_assignedSubSocket _ _ _ settled.peersOf.sorted⟩
  · intro connect inConfigs
    obtain ⟨config, member, initialized⟩ := before connect inConfigs
    have standard := initialized.standard (deployment.fresh config member)
    have resolves : ∀ channel sp, connect.fConnectChannels.lookup channel = some sp →
        hasAddress sp = false → ∃ resolved, connect.resolveChannel registry sp = .ok resolved := by
      intro channel sp found _
      by_cases linked : Linked links connect.fServiceName channel
      · obtain ⟨-, peers, addresses, -, -, -, resolved⟩ :=
          deployment.resolveChannel_served endpoints
          after exchanged member inConfigs initialized found linked
        exact ⟨_, resolved⟩
      · obtain ⟨peers, settled, holds⟩ := initialized.settled_self (Or.inr found)
        have none := settled.peersOf.eq_nil linked
        refine ⟨sp, ?_⟩
        rw [resolveChannel, settled.sameName, peerListKey_eq standard, channelKey_eq standard,
          exchanged.lrange_eq inConfigs settled holds, none]
        rfl
    obtain ⟨resolved, ok, results⟩ := resolveConnectAddress_ok resolves
    refine ⟨resolved, ok, fun channel sp found linked => ?_⟩
    obtain ⟨noAddress, peers, addresses, listed, peersOf, served, isResolved⟩ :=
      deployment.resolveChannel_served endpoints after exchanged member inConfigs initialized found
        linked
    exact ⟨peers, addresses, listed, peersOf, served,
      results channel sp found noAddress _ isResolved⟩

end Wiring

/-! ## Two sources and two sinks -/

/-- The id that index allocation gives to an instance. -/
def indexId (service : Text) (index : Nat) : Text :=
  service ++ '-' :: Text.decimal index

/-- Two sources with one connect channel each and two sinks with one bind channel each. -/
def twins : List TopologyConfig :=
  ["Src".toList, "Snk".toList].flatMap fun service => (List.range 2).map fun index =>
    { fTopPrefix := topPrefix, fServiceName := service, fId := indexId service index }

/-- The name of the sources' channel, which may be that of the presence keys. -/
def twinChannel (reserved : Bool) : Text :=
  if reserved then presencePrefix else "out".toList

/-- The link between the two services. -/
def twinLink (reserved : Bool) : LinkKey :=
  ⟨"Src".toList, twinChannel reserved, "Snk".toList, "in".toList⟩

/-- A registry with the two endpoints, which may count their peers, the link and the four
instances. -/
def twinRegistry (auto reserved : Bool) : Db :=
  let endpoint (db : Db) (service channel method : Text) : Db :=
    hset db (serviceEndpointKey service channel)
      [(Field.text .method, method), (Field.text .autoSubChannel, flagText auto)]
  let bindEnd := endpoint ∅ "Snk".toList "in".toList "bind".toList
  let declared := set (endpoint bindEnd "Src".toList (twinChannel reserved) "connect".toList)
    (twinLink reserved).key []
  twins.foldl (fun db config => hset (set db (presenceKey config.fServiceName config.fId) [])
    (healthKey config.fServiceName config.fId) [("hostIp".toList, "10.0.0.1".toList)]) declared

/-- The sub-sockets of a sink, which are its sockets where the sinks count them. -/
def twinCount (auto reserved : Bool) : Nat :=
  if auto then if reserved then 4 else 2 else 1

/-- The sinks publish their sub-sockets. -/
def twinExchange (auto reserved : Bool) (final : Db) : Db :=
  (List.range 2).foldl (fun db sink => (List.range (twinCount auto reserved)).foldl
    (fun db index =>
      hset db (instanceSocketKey "Snk".toList (indexId "Snk".toList sink) "in".toList index)
        [(Field.text .address, "tcp://*:50".toList ++ Text.decimal index ++ Text.decimal sink)])
    db) final

theorem twins_fresh : ∀ config ∈ twins, Fresh config := by
  intro config member
  obtain ⟨service, inServices, inInstances⟩ := List.mem_flatMap.mp member
  obtain ⟨index, -, rfl⟩ := List.mem_map.mp inInstances
  simp only [List.mem_cons, List.not_mem_nil, or_false] at inServices
  have name : Name service ∧ ¬ channelPrefix <+: service := by
    rcases inServices with rfl | rfl <;> decide
  exact ⟨⟨rfl, rfl⟩, instanceName_of_index name.1 name.2 index, rfl, rfl, rfl, rfl⟩

theorem mem_twins {service instanceId : Text} :
    (∃ config ∈ twins, config.fServiceName = service ∧ config.fId = instanceId) ↔
      (service = "Src".toList ∨ service = "Snk".toList) ∧
        ∃ index < 2, instanceId = indexId service index := by
  constructor
  · rintro ⟨config, member, rfl, rfl⟩
    obtain ⟨service, inServices, inInstances⟩ := List.mem_flatMap.mp member
    obtain ⟨index, below, rfl⟩ := List.mem_map.mp inInstances
    exact ⟨by simpa using inServices, index, List.mem_range.mp below, rfl⟩
  · rintro ⟨isService, index, below, rfl⟩
    refine ⟨_, List.mem_flatMap.mpr ⟨service, by simpa using isService,
      List.mem_map.mpr ⟨index, List.mem_range.mpr below, rfl⟩⟩, rfl, rfl⟩

theorem twins_present (auto reserved : Bool) {service : Text}
    (isEnd : IsEnd [twinLink reserved] service) (instanceId : Text) :
    presenceKey service instanceId ∈ twinRegistry auto reserved ↔
      ∃ config ∈ twins, config.fServiceName = service ∧ config.fId = instanceId := by
  have known : service = "Src".toList ∨ service = "Snk".toList := by
    obtain ⟨link, member, ends⟩ := isEnd
    obtain rfl := List.mem_singleton.mp member
    exact ends.imp Eq.symm Eq.symm
  have only : ∀ service ∈ ["Src".toList, "Snk".toList], ∀ key ∈ (twinRegistry auto reserved).keys,
      Glob.stringmatch (presenceKey service ['*']) key →
        key ∈ ((List.range 2).map (indexId service)).map (presenceKey service) := by
    cases auto <;> cases reserved <;> decide +kernel
  have stored : ∀ service ∈ ["Src".toList, "Snk".toList], ∀ index < 2,
      presenceKey service (indexId service index) ∈ twinRegistry auto reserved := by
    cases auto <;> cases reserved <;> decide +kernel
  have inList : service ∈ ["Src".toList, "Snk".toList] := by simpa using known
  have plain : Glob.Plain service := by
    rcases known with rfl | rfl <;> decide
  rw [mem_twins]
  constructor
  · intro member
    obtain ⟨index, below, same⟩ :=
      List.mem_map.mp (instanceId_of_keys plain (only service inList) member)
    exact ⟨known, index, List.mem_range.mp below, same.symm⟩
  · rintro ⟨-, index, below, rfl⟩
    exact stored service inList index below

theorem twins_setting (auto reserved : Bool) :
    Setting [twinLink reserved] twins (twinRegistry auto reserved) where
  fresh := twins_fresh
  distinct := by decide +kernel
  declares := by
    cases auto <;> cases reserved <;>
      exact declares_of_keys (by decide) (by decide +kernel) (by decide +kernel)
  noSelf := by cases reserved <;> decide
  noPrefix := by cases reserved <;> decide
  endpoints := by
    intro config member channel stored
    have names : ∀ config ∈ twins, ∀ key ∈ (twinRegistry auto reserved).keys,
        config.endpointKey [] <+: key → Name (key.drop (config.endpointKey []).length) := by
      cases auto <;> cases reserved <;> decide +kernel
    rw [endpointKey_append] at stored
    exact name_of_keys (names config member) stored
  present := fun _ isEnd instanceId => twins_present auto reserved isEnd instanceId
  unpublished := by
    intro config member key stored
    have keys : ∀ config ∈ twins, ∀ key ∈ (twinRegistry auto reserved).keys,
        ¬ area config.fServiceName config.fId channelPrefix <+: key := by
      cases auto <;> cases reserved <;> decide +kernel
    exact keys config member key (AList.mem_keys.mp stored)

theorem lookup_twinExchange (auto reserved : Bool) (final : Db) {key : Text}
    (differs : ∀ sink index, key ≠
      instanceSocketKey "Snk".toList (indexId "Snk".toList sink) "in".toList index) :
    (twinExchange auto reserved final).lookup key = final.lookup key := by
  have published (sink : Nat) (indices : List Nat) (db : Db) :
      (indices.foldl (fun db index =>
        hset db (instanceSocketKey "Snk".toList (indexId "Snk".toList sink) "in".toList index)
          [(Field.text .address, "tcp://*:50".toList ++ Text.decimal index ++ Text.decimal sink)])
        db).lookup key = db.lookup key := by
    induction indices generalizing db with
    | nil => rfl
    | cons index rest ih => rw [List.foldl_cons, ih, lookup_hset_of_ne _ (differs sink index)]
  rw [twinExchange]
  induction List.range 2 generalizing final with
  | nil => rfl
  | cons sink rest ih => rw [List.foldl_cons, ih, published]

/-- What the instances have after `Initialize`, and what the sinks show. -/
theorem twins_shown (auto reserved : Bool) :
    (initializeAll twins (twinRegistry auto reserved)).map (fun result =>
      let registry := twinExchange auto reserved result.2
      decide ((∀ config ∈ result.1, (∃ other ∈ twins,
            config.fServiceName = other.fServiceName ∧ config.fId = other.fId) ∧
          config.fBindChannels.keys ⊆ ["in".toList] ∧
          (config.fServiceName ≠ "Snk".toList → config.fBindChannels.keys = []) ∧
          (auto = true → ∀ entry ∈ ordered config.fBindChannels,
            entry.2.numSockets = (twinCount auto reserved : Int))) ∧
        (∃ sink ∈ result.1, sink.fServiceName = "Snk".toList ∧
          "in".toList ∈ sink.fBindChannels.keys) ∧
        ∀ sink < 2,
          (hget registry (healthKey "Snk".toList (indexId "Snk".toList sink))
            "hostIp".toList).isSome ∧
          (∀ index < twinCount auto reserved, hget registry
            (instanceSocketKey "Snk".toList (indexId "Snk".toList sink) "in".toList index)
            (Field.text .address) =
              some ("tcp://*:50".toList ++ Text.decimal index ++ Text.decimal sink)) ∧
          ∀ key ∈ registry.keys,
            socketKeyPrefix "Snk".toList (indexId "Snk".toList sink) "in".toList <+: key →
              key ∈ (List.range (twinCount auto reserved)).map
                (instanceSocketKey "Snk".toList (indexId "Snk".toList sink) "in".toList))) =
      some true := by
  cases auto <;> cases reserved <;> decide +kernel

/-- All instances run `Initialize`, the sources first, and the sinks publish. -/
theorem twins_exchanged (auto reserved : Bool) {count : SocketProperty → Nat}
    (counts : ∀ sp : SocketProperty, (auto = true → sp.numSockets = twinCount auto reserved) →
      count sp = twinCount auto reserved) :
    ∃ configs final, initializeAll twins (twinRegistry auto reserved) = some (configs, final) ∧
      (∃ sink ∈ configs, sink.fServiceName = "Snk".toList ∧ ∃ sp,
        sink.fBindChannels.lookup "in".toList = some sp ∧
          (auto = true → sp.numSockets = twinCount auto reserved)) ∧
      Exchanged [twinLink reserved] configs final (twinExchange auto reserved final) count := by
  obtain ⟨⟨configs, final⟩, run, shown⟩ := Option.map_eq_some_iff.mp (twins_shown auto reserved)
  obtain ⟨channels, ⟨sink, inConfigs, isSink, inKeys⟩, exposed⟩ := of_decide_eq_true shown
  have counted {config : TopologyConfig} (member : config ∈ configs) {channel : Text}
      {sp : SocketProperty} (found : config.fBindChannels.lookup channel = some sp)
      (isAuto : auto = true) : sp.numSockets = twinCount auto reserved :=
    (channels config member).2.2.2 isAuto _ (mem_ordered.mpr found)
  have identity {config : TopologyConfig} (member : config ∈ configs) :
      (config.fServiceName = "Src".toList ∨ config.fServiceName = "Snk".toList) ∧
        ∃ index < 2, config.fId = indexId config.fServiceName index := by
    obtain ⟨⟨other, inTwins, service, instanceId⟩, -⟩ := channels config member
    exact mem_twins.mp ⟨other, inTwins, service.symm, instanceId.symm⟩
  have indexPart (service : Text) (part : Registry.Part service) (index : Nat) :
      Registry.Part (indexId service index) := by
    simp only [Registry.Part, indexId, List.mem_append, List.mem_cons, not_or]
    exact ⟨part, by decide, fun digit => absurd (Text.isDigit_of_mem_decimal digit) (by decide)⟩
  refine ⟨configs, final, run, ⟨sink, inConfigs, isSink, ?_⟩, fun config member key inArea => ?_,
    fun config member channel sp found linked => ?_⟩
  · obtain ⟨sp, found⟩ := Option.isSome_iff_exists.mp
      (AList.lookup_isSome.mpr (AList.mem_keys.mpr inKeys))
    exact ⟨sp, found, counted inConfigs found⟩
  · obtain ⟨service, index, -, isId⟩ := identity member
    refine Or.inl (lookup_twinExchange auto reserved final fun sink other same => ?_)
    have part : Part config.fServiceName := by
      rcases service with service | service <;> rw [service] <;> decide
    rw [same] at inArea
    exact not_area_instanceSocketKey part (by decide) (isId ▸ indexPart _ part index)
      (indexPart _ (by decide) sink) _ _ inArea
  · rw [counts sp (counted member found)]
    obtain ⟨-, only, noOther, -⟩ := channels config member
    have inKeys : channel ∈ config.fBindChannels.keys :=
      AList.mem_keys.mp (AList.lookup_isSome.mp (found ▸ rfl))
    obtain rfl := List.mem_singleton.mp (only inKeys)
    have service : config.fServiceName = "Snk".toList := by
      by_contra other
      exact absurd inKeys (noOther other ▸ List.not_mem_nil)
    obtain ⟨-, index, below, isId⟩ := identity member
    rw [service] at isId
    obtain ⟨host, address, onlyKeys⟩ := exposed index below
    rw [service, isId]
    refine ⟨host, fun other belowCount => ⟨_, by simp, address other belowCount⟩,
      fun key stored isPrefix => ?_⟩
    obtain ⟨other, belowCount, rfl⟩ :=
      List.mem_map.mp (onlyKeys key (AList.mem_keys.mp stored) isPrefix)
    exact ⟨other, List.mem_range.mp belowCount, rfl⟩

theorem twins_endpoints (reserved : Bool) :
    LinksEndpoints [twinLink reserved] (twinRegistry true reserved) AutoSubChannel := by
  intro link member
  obtain rfl := List.mem_singleton.mp member
  refine ⟨("Snk".toList, "in".toList), ("Src".toList, twinChannel reserved),
    { method := "bind".toList, autoSubChannel := true },
    { method := "connect".toList, autoSubChannel := true }, Or.inr ⟨rfl, rfl⟩,
    ⟨⟨?_, ?_⟩, rfl, rfl, rfl, rfl⟩, ⟨?_, ?_⟩, rfl, rfl, rfl, rfl⟩ <;>
  cases reserved <;> decide +kernel

/-- Sources whose channel is called `presence` are taken for more instances by the sinks,
which then have sub-sockets that no connect channel uses. -/
theorem wiring_presence_not_oneToOne :
    Setting [twinLink true] twins (twinRegistry true true) ∧
      LinksEndpoints [twinLink true] (twinRegistry true true) AutoSubChannel ∧
      ∃ configs final, initializeAll twins (twinRegistry true true) = some (configs, final) ∧
        Exchanged [twinLink true] configs final (twinExchange true true final)
          (fun sp => sp.numSockets.toNat) ∧
        ¬ OneToOne [twinLink true] twins configs (twinExchange true true final) := by
  obtain ⟨configs, final, run, ⟨sink, member, service, sp, found, counted⟩, exchanged⟩ :=
    @twins_exchanged true true (fun sp => sp.numSockets.toNat) fun sp same => by simp [same rfl]
  refine ⟨twins_setting true true, twins_endpoints true, configs, final, run, exchanged,
    fun wired => ?_⟩
  have linked : Linked [twinLink true] sink.fServiceName "in".toList :=
    ⟨_, List.mem_cons_self, _, Or.inr ⟨by rw [service]; rfl, rfl⟩⟩
  obtain ⟨peers, -, peersOf, -, sockets, -⟩ := wired.bind sink member _ sp found linked
  have sources : peers ⊆ (List.range 2).map fun index =>
      instanceChannelKey "Src".toList (indexId "Src".toList index) presencePrefix := by
    intro key inPeers
    obtain ⟨link, inLinks, far, joins, peer, inTwins, peerService, rfl⟩ :=
      (peersOf.mem_iff key).mp inPeers
    obtain rfl := List.mem_singleton.mp inLinks
    obtain rfl : far = ("Src".toList, presencePrefix) := by
      rcases joins with ⟨near, -⟩ | ⟨-, farEq⟩
      · rw [service] at near
        exact absurd near (by decide)
      · exact farEq
    obtain ⟨-, index, below, isId⟩ := mem_twins.mp ⟨peer, inTwins, peerService, rfl⟩
    rw [isId]
    exact List.mem_map_of_mem (List.mem_range.mpr below)
  have nodup : peers.Nodup := peersOf.sorted.imp ne_of_lt
  have few : peers.length ≤ 2 := by
    simpa using (nodup.subperm sources).length_le
  have many : (twinCount true true : Int) = peers.length := (counted rfl).symm.trans sockets
  rw [show twinCount true true = 4 from rfl] at many
  omega

/-- With another name for their channels, the sources are wired to the sinks. -/
theorem wiring_twins_oneToOne : ∃ configs final,
    initializeAll twins (twinRegistry true false) = some (configs, final) ∧
      OneToOne [twinLink false] twins configs (twinExchange true false final) := by
  obtain ⟨configs, final, run, -, exchanged⟩ :=
    @twins_exchanged true false (fun sp => sp.numSockets.toNat) fun sp same => by simp [same rfl]
  have unreserved : ∀ config ∈ twins,
      config.endpointKey presencePrefix ∉ twinRegistry true false := by
    decide +kernel
  exact ⟨configs, final, run, wiring_oneToOne ⟨twins_setting true false, unreserved⟩
    (twins_endpoints false) (List.Perm.refl _) run exchanged⟩

end NestDaq.Topology
