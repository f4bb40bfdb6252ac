import NestDaq.Topology.Initialization

/-!
# Resolution after the exchange of addresses

When every bind channel has its sub-sockets in the registry and its peer list as
`Initialize` left it, `ReadPeerAddress` gives one address for each sub-socket,
in the order of the keys, and the loop of `ResolveConnectAddress` takes from
each peer the address at the rank that the peer gives to the connect channel.
-/

namespace NestDaq.Topology

open NestDaq.Store
open NestDaq.Registry
open TopologyConfig

/-- The sub-sockets of a channel are in the registry with their addresses, one for
each index below the count, and the host address of their instance is known. -/
structure Exposes (db : Db) (service instanceId channel : Text) (count : Nat) : Prop where
  host : (hget db (healthKey service instanceId) "hostIp".toList).isSome
  address : ∀ index < count, ∃ address, address ≠ [] ∧
    hget db (instanceSocketKey service instanceId channel index) (Field.text .address) =
      some address
  only : ∀ key ∈ db, socketKeyPrefix service instanceId channel <+: key →
    ∃ index < count, key = instanceSocketKey service instanceId channel index

/-- The address a connector makes of a sub-socket of an instance. -/
def subSocketAddress (db : Db) (service instanceId key : Text) : Text :=
  makeAddress ((hget db key (Field.text .address)).getD [])
    ((hget db (healthKey service instanceId) "hostIp".toList).getD [])

section Exposes

variable {db : Db} {service instanceId channel : Text} {count : Nat}

theorem Exposes.subSocketAddress_ne_nil (exposes : Exposes db service instanceId channel count)
    {key : Text} (member : key ∈ subSocketKeys service instanceId channel count) :
    subSocketAddress db service instanceId key ≠ [] := by
  obtain ⟨index, below, rfl⟩ := mem_subSocketKeys.mp member
  obtain ⟨address, nonempty, found⟩ := exposes.address index below
  rw [subSocketAddress, found]
  exact makeAddress_ne_nil nonempty _

/-- `ReadPeerAddress` gives the addresses of the sub-sockets in the order of their keys. -/
theorem Exposes.peerAddress_eq (exposes : Exposes db service instanceId channel count)
    {config : TopologyConfig} (standard : config.Standard) (name : InstanceName service instanceId)
    (channelName : Name channel) :
    config.peerAddress db (instanceChannelKey service instanceId channel) =
      .ok ((subSocketKeys service instanceId channel count).map
        (subSocketAddress db service instanceId)) := by
  obtain ⟨ip, health⟩ := Option.isSome_iff_exists.mp exposes.host
  obtain ⟨addresses, read, each⟩ := @readPeerAddress_of_present config standard service instanceId
    channel name channelName count (fun _ => ⟨db, false⟩) 0 ip health
    (fun _ _ index below => by
      obtain ⟨address, -, found⟩ := exposes.address index below
      exact found ▸ rfl)
    (fun _ _ => exposes.only)
  have same : List.Forall₂ (· = ·) ((subSocketKeys service instanceId channel count).map
      (subSocketAddress db service instanceId)) addresses := by
    refine List.forall₂_map_left_iff.mpr (each.imp ?_)
    rintro key address ⟨later, text, -, found, rfl⟩
    rw [subSocketAddress, found, health, Option.getD_some, Option.getD_some]
  rw [List.forall₂_eq_eq_eq] at same
  rw [peerAddress, read, same]
  rfl

end Exposes

/-- An entry of a registry is as it was, or a hash that was marked as bound. -/
def Marked (before after : Db) (key : Text) : Prop :=
  after.lookup key = before.lookup key ∨ ∃ fields, before.lookup key = some (.hash fields) ∧
    after.lookup key = some (.hash (fields.insert (Field.text .bound) ['1']))

section Marked

variable {before after : Db} {key : Text}

theorem Marked.lrange_eq (marked : Marked before after key) :
    lrange after key = lrange before key := by
  rcases marked with same | ⟨fields, old, new⟩
  · exact lrange_congr same
  · rw [lrange, lrange, old, new]

/-- The properties of a channel are read back up to their mark. -/
theorem Marked.toSocketProperty_eq (marked : Marked before after key) {sp : SocketProperty}
    (written : ∀ field, hget before key (Field.text field) = some (fieldText sp field)) :
    ∃ bound, toSocketProperty (hgetall after key) = some { sp with bound := bound } := by
  rcases marked with same | ⟨fields, old, new⟩
  · refine ⟨sp.bound, toSocketProperty_of_fieldText fun field => ?_⟩
    rw [hgetall_congr same]
    exact written field
  · refine ⟨true, toSocketProperty_of_fieldText fun field => ?_⟩
    have stored := written field
    rw [hget, hgetall, old] at stored
    rw [hgetall, new]
    by_cases isBound : field = .bound
    · subst isBound
      exact AList.lookup_insert _
    · rw [AList.lookup_insert_ne fun same => isBound (Field.text_injective same)]
      cases field <;> first | exact absurd rfl isBound | exact stored

end Marked

/-! ## The loop over the peers -/

namespace TopologyConfig

variable {config : TopologyConfig} {db : Db} {sp : SocketProperty} {me : Text} {size : Nat}
  {chosen : Text → Text}

/-- What the loop finds for a peer: its properties, and an address at the rank that
the peer gives to the connect channel. -/
structure Offers (config : TopologyConfig) (db : Db) (me peer chosen : Text) : Prop where
  offer : ∃ property addresses, toSocketProperty (hgetall db peer) = some property ∧
    config.peerAddress db peer = .ok addresses ∧
    addresses[(lrange db (config.peerListKey peer)).idxOf me]? = some chosen ∧
    (property.numSockets ≤ 1 → addresses.length = 1)
  nonempty : chosen ≠ []

@[simp]
theorem ok_bind {α β : Type} (value : α) (next : α → Except Fault β) :
    (Except.ok value >>= next) = next value :=
  rfl

theorem element_of_getElem? {addresses : List Text} {index : Nat} {address : Text}
    (found : addresses[index]? = some address) : element addresses index = .ok address := by
  rw [element, found]

/-- With one address its position is the first. -/
theorem element_zero_of_length {addresses : List Text} {index : Nat} {address : Text}
    (found : addresses[index]? = some address) (one : addresses.length = 1) :
    element addresses 0 = .ok address := by
  obtain ⟨below, -⟩ := List.getElem?_eq_some_iff.mp found
  obtain rfl : index = 0 := by omega
  exact element_of_getElem? found

/-- A connect channel with several sockets appends the address of each peer. -/
theorem resolvePeers_append (several : 1 < sp.numSockets) {peers : List Text}
    (offers : ∀ peer ∈ peers, config.Offers db me peer (chosen peer)) (res : SocketProperty)
    (peerIndex : Nat) :
    config.resolvePeers db sp me size peers res peerIndex false =
      .ok ((peers.map chosen).foldl appendAddress res) := by
  induction peers generalizing res peerIndex with
  | nil => rfl
  | cons peer rest ih =>
      obtain ⟨property, addresses, read, addressed, found, one⟩ :=
        (offers peer List.mem_cons_self).offer
      have later := ih fun other member => offers other (List.mem_cons_of_mem _ member)
      have manySockets : ¬ sp.numSockets ≤ 1 := Int.not_le.mpr several
      simp only [resolvePeers, read, addressed, manySockets, false_and, if_false,
        Bool.false_eq_true]
      by_cases single : property.numSockets ≤ 1
      · -- n:1
        simp only [ok_bind, single, if_true, one single,
          element_zero_of_length found (one single)]
        exact later _ _
      · -- n:m
        obtain ⟨below, -⟩ := List.getElem?_eq_some_iff.mp found
        simp only [ok_bind, single, if_false, below, if_true, element_of_getElem? found]
        exact later _ _

/-- A connect channel with one socket and one peer takes the address of this peer. -/
theorem resolvePeers_single (single : sp.numSockets ≤ 1) {peer : Text}
    (offers : config.Offers db me peer (chosen peer)) :
    config.resolvePeers db sp me 1 [peer] sp 0 false =
      .ok { sp with address := chosen peer } := by
  obtain ⟨property, addresses, read, addressed, found, one⟩ := offers.offer
  simp only [resolvePeers, read, addressed, single, true_and, false_and, if_false,
    Bool.false_eq_true, or_true, if_true]
  by_cases peerSingle : property.numSockets ≤ 1
  · simp only [ok_bind, peerSingle, if_true, element_zero_of_length found (one peerSingle)]
    rfl
  · -- 1:m
    simp only [ok_bind, peerSingle, if_false, element_of_getElem? found]

/-- Appended addresses are joined by commas. -/
theorem foldl_appendAddress {addresses : List Text} (nonempty : ∀ address ∈ addresses, address ≠ [])
    (res : SocketProperty) :
    addresses.foldl appendAddress res = { res with
      address := if res.address = [] then Text.join addresses [',']
        else Text.join (res.address :: addresses) [','] } := by
  induction addresses generalizing res with
  | nil =>
      by_cases empty : res.address = []
      · cases res
        simp_all [Text.join]
      · simp [empty]
  | cons address rest ih =>
      rw [List.foldl_cons, ih fun other member => nonempty other (List.mem_cons_of_mem _ member)]
      have notEmpty := nonempty address List.mem_cons_self
      by_cases empty : res.address = []
      · simp [appendAddress, empty, notEmpty]
      · have notJoined : res.address ++ [','] ++ address ≠ [] := by simp
        simp only [appendAddress, empty, if_false, notJoined, Text.join_cons_cons]
        cases rest <;> simp [Text.join_cons_cons]

/-- A connect channel without an address whose sockets are counted by its peers gets
the chosen addresses of its peers, in the order of the peers. -/
theorem resolvePeers_join {peers : List Text} (noAddress : sp.address = [])
    (counted : sp.numSockets = peers.length)
    (offers : ∀ peer ∈ peers, config.Offers db me peer (chosen peer)) :
    config.resolvePeers db sp me peers.length peers sp 0 false =
      .ok { sp with address := Text.join (peers.map chosen) [','] } := by
  rcases Nat.lt_or_ge 1 peers.length with several | few
  · rw [resolvePeers_append (by omega) offers, foldl_appendAddress, if_pos noAddress]
    intro address member
    obtain ⟨peer, inPeers, rfl⟩ := List.mem_map.mp member
    exact (offers peer inPeers).nonempty
  · match peers, few with
    | [], _ =>
        cases sp
        simp_all [resolvePeers, Text.join]
    | [peer], _ =>
        rw [List.length_singleton, resolvePeers_single (counted ▸ Int.le_refl _)
          (offers peer List.mem_cons_self), List.map_singleton, Text.join_singleton]

end TopologyConfig

/-! ## Bind and connect ends -/

/-- The endpoint a service declares for a channel. -/
structure DeclaresEndpoint (db : Db) (service channel : Text) (base : SocketProperty) : Prop where
  stored : serviceEndpointKey service channel ∈ db
  read : toSocketProperty (hgetall db (serviceEndpointKey service channel)) = some base

theorem serviceEndpointKey_append (service channel : Text) :
    serviceEndpointKey service channel = serviceEndpointKey service [] ++ channel := by
  simp [serviceEndpointKey, colon]

/-- The hashes of endpoints are checked on the keys of a registry. -/
theorem exists_declaresEndpoint_of_keys {db : Db} {service channel : Text}
    (readable : ∀ key ∈ db.keys, serviceEndpointKey service [] <+: key →
      (toSocketProperty (hgetall db key)).isSome)
    (stored : serviceEndpointKey service channel ∈ db) :
    ∃ base, DeclaresEndpoint db service channel base := by
  have isPrefix : serviceEndpointKey service [] <+: serviceEndpointKey service channel := by
    rw [serviceEndpointKey_append service channel]
    exact List.prefix_append _ _
  rcases Option.isSome_iff_exists.mp (readable _ (AList.mem_keys.mp stored) isPrefix) with
    ⟨base, read⟩
  exact ⟨base, stored, read⟩

/-- So are the presences of a service. -/
theorem instanceId_of_keys {db : Db} {service instanceId : Text} {ids : List Text}
    (plain : Glob.Plain service)
    (only : ∀ key ∈ db.keys, Glob.stringmatch (presenceKey service ['*']) key →
      key ∈ ids.map (presenceKey service))
    (stored : presenceKey service instanceId ∈ db) : instanceId ∈ ids := by
  rcases List.mem_map.mp (only _ (AList.mem_keys.mp stored)
    ((stringmatch_presence plain _).mpr ⟨instanceId, rfl⟩)) with ⟨other, isId, same⟩
  rwa [← presenceKey_right_injective service same]

/-- Every link joins a bind endpoint and a connect endpoint of a kind. -/
def LinksEndpoints (links : List LinkKey) (db : Db) (kind : SocketProperty → Prop) : Prop :=
  ∀ link ∈ links, ∃ bindEnd connectEnd bindBase connectBase, link.Joins bindEnd connectEnd ∧
    (DeclaresEndpoint db bindEnd.1 bindEnd.2 bindBase ∧ bindBase.method = "bind".toList ∧
      kind bindBase) ∧
    DeclaresEndpoint db connectEnd.1 connectEnd.2 connectBase ∧
      connectBase.method = "connect".toList ∧ kind connectBase

/-- Some link joins the channel to another end. -/
def Linked (links : List LinkKey) (service channel : Text) : Prop :=
  ∃ link ∈ links, ∃ far, link.Joins (service, channel) far

/-- The registry after the exchange of addresses: channels are as `Initialize` left
them or marked as bound, and the sub-sockets of the linked bind channels are
published. -/
structure Exchanged (links : List LinkKey) (configs : List TopologyConfig) (final registry : Db)
    (count : SocketProperty → Nat) : Prop where
  marked : ∀ config ∈ configs, ∀ key,
    area config.fServiceName config.fId channelPrefix <+: key → Marked final registry key
  exposes : ∀ config ∈ configs, ∀ channel sp, config.fBindChannels.lookup channel = some sp →
    Linked links config.fServiceName channel →
      Exposes registry config.fServiceName config.fId channel (count sp)

/-- The channel of a bind instance behind a peer key of a connect channel. -/
structure BindPeer (links : List LinkKey) (instances configs : List TopologyConfig) (db final : Db)
    (kind : SocketProperty → Prop) (me peer : Text) (bind : TopologyConfig) (channel : Text)
    (sp : SocketProperty) (peers : List Text) : Prop where
  member : bind ∈ configs
  found : bind.fBindChannels.lookup channel = some sp
  key : peer = instanceChannelKey bind.fServiceName bind.fId channel
  linked : Linked links bind.fServiceName channel
  standard : bind.Standard
  name : InstanceName bind.fServiceName bind.fId
  channelName : Name channel
  settled : Settled links instances db bind channel sp peers
  holds : Holds final bind sp peers
  kind : ∃ base, DeclaresEndpoint db bind.fServiceName channel base ∧ kind base
  listed : me ∈ peers

section Peers

variable {links : List LinkKey} {instances configs : List TopologyConfig} {db final : Db}
  {kind : SocketProperty → Prop}

theorem endpointKey_eq {config : TopologyConfig} (standard : config.Standard) (channel : Text) :
    config.endpointKey channel = serviceEndpointKey config.fServiceName channel := by
  rw [TopologyConfig.endpointKey, TopologyConfig.key, standard.top, standard.separator]
  rfl

/-- The final properties in terms of the declared endpoint. -/
theorem Settled.of_declares {config : TopologyConfig} (standard : config.Standard)
    {channel : Text} {sp base : SocketProperty} {peers : List Text}
    (settled : Settled links instances db config channel sp peers)
    (declares : DeclaresEndpoint db config.fServiceName channel base) :
    sp.method = base.method ∧
      (sp.numSockets = if base.autoSubChannel then base.numSockets + peers.length
        else base.numSockets) ∧
      (base.method ≠ "bind".toList → sp.address = base.address) := by
  obtain ⟨base', found, method, -, sockets, address⟩ := settled.read
  rw [endpointKey_eq standard, declares.read] at found
  obtain rfl := Option.some.inj found
  exact ⟨method, sockets, address⟩

namespace Initialized

variable {config config' : TopologyConfig}
  (initialized : Initialized links instances db config config' final)

include initialized

theorem sameService : config'.fServiceName = config.fServiceName := by
  obtain ⟨bind, connect, fLinks, keys, rfl⟩ := initialized.identity
  rfl

theorem sameId : config'.fId = config.fId := by
  obtain ⟨bind, connect, fLinks, keys, rfl⟩ := initialized.identity
  rfl

theorem standard (fresh : Fresh config) : config'.Standard := by
  obtain ⟨bind, connect, fLinks, keys, rfl⟩ := initialized.identity
  exact ⟨fresh.standard.top, fresh.standard.separator⟩

theorem instanceName (fresh : Fresh config) : InstanceName config'.fServiceName config'.fId := by
  rw [initialized.sameService, initialized.sameId]
  exact fresh.name

theorem settled_self {channel : Text} {sp : SocketProperty}
    (found : config'.fBindChannels.lookup channel = some sp ∨
      config'.fConnectChannels.lookup channel = some sp) :
    ∃ peers, Settled links instances db config' channel sp peers ∧
      Holds final config' sp peers := by
  obtain ⟨peers, settled, holds⟩ := initialized.settled channel sp found
  obtain ⟨bind, connect, fLinks, keys, rfl⟩ := initialized.identity
  exact ⟨peers, ⟨settled.peersOf, settled.endpoint, settled.sameName, settled.read⟩,
    ⟨holds.listed, holds.properties⟩⟩

end Initialized

/-- The ends of a link between endpoints, seen from a connect channel. -/
theorem LinksEndpoints.far_of_connect (endpoints : LinksEndpoints links db kind)
    {service channel : Text} {far : Text × Text} {link : LinkKey} (inLinks : link ∈ links)
    (joins : link.Joins (service, channel) far) {base : SocketProperty}
    (declares : DeclaresEndpoint db service channel base)
    (isConnect : base.method = "connect".toList) :
    kind base ∧ ∃ bindBase, DeclaresEndpoint db far.1 far.2 bindBase ∧
      bindBase.method = "bind".toList ∧ kind bindBase := by
  obtain ⟨bindEnd, connectEnd, bindBase, connectBase, ends, ⟨bindDeclares, isBind, bindKind⟩,
    connectDeclares, -, connectKind⟩ := endpoints link inLinks
  have notBind : (service, channel) ≠ bindEnd := by
    rintro rfl
    have same := Option.some.inj (declares.read.symm.trans bindDeclares.read)
    rw [same, isBind] at isConnect
    exact absurd isConnect (by decide)
  obtain ⟨rfl, rfl⟩ : (service, channel) = connectEnd ∧ far = bindEnd := by
    rcases joins with ⟨near, far⟩ | ⟨near, far⟩ <;>
      rcases ends with ⟨first, second⟩ | ⟨first, second⟩
    · exact absurd (near.trans first.symm) notBind
    · exact ⟨near.trans second.symm, far.trans first.symm⟩
    · exact ⟨near.trans second.symm, far.trans first.symm⟩
    · exact absurd (near.trans first.symm) notBind
  have same := Option.some.inj (declares.read.symm.trans connectDeclares.read)
  exact ⟨same ▸ connectKind, bindBase, bindDeclares, isBind, bindKind⟩

/-- The peers of a connect channel are bind channels that have the connect channel
among their own peers. -/
theorem Deployment.connect_peers (deployment : Deployment links instances db)
    (endpoints : LinksEndpoints links db kind)
    (after : ∀ config ∈ instances, ∃ config' ∈ configs,
      Initialized links instances db config config' final)
    {config config' : TopologyConfig} (member : config ∈ instances)
    (initialized : Initialized links instances db config config' final)
    {channel : Text} {sp : SocketProperty}
    (found : config'.fConnectChannels.lookup channel = some sp)
    (linked : Linked links config'.fServiceName channel) :
    ∃ peers base, Settled links instances db config' channel sp peers ∧
      Holds final config' sp peers ∧
      DeclaresEndpoint db config'.fServiceName channel base ∧ kind base ∧
      base.method = "connect".toList ∧
      ∀ peer ∈ peers, ∃ bind bindChannel bindSp bindPeers,
        BindPeer links instances configs db final kind
          (instanceChannelKey config'.fServiceName config'.fId channel) peer bind bindChannel
          bindSp bindPeers := by
  have standard := initialized.standard (deployment.fresh config member)
  obtain ⟨peers, settled, holds⟩ := initialized.settled_self (Or.inr found)
  obtain ⟨base, read, method, -⟩ := settled.read
  have declares : DeclaresEndpoint db config'.fServiceName channel base := by
    rw [endpointKey_eq standard] at read
    exact ⟨endpointKey_eq standard channel ▸ settled.endpoint, read⟩
  have isConnect : base.method = "connect".toList :=
    method.symm.trans (initialized.sorted.connect channel sp found)
  obtain ⟨link, inLinks, far, joins⟩ := linked
  have connectKind := (endpoints.far_of_connect inLinks joins declares isConnect).1
  refine ⟨peers, base, settled, holds, declares, connectKind, isConnect, fun peer inPeers => ?_⟩
  obtain ⟨link, inLinks, ⟨farService, farChannel⟩, joins, bindConfig, bindMem, service, rfl⟩ :=
    (settled.peersOf.mem_iff peer).mp inPeers
  obtain rfl : bindConfig.fServiceName = farService := service
  obtain ⟨bindBase, bindDeclares, isBind, bindKind⟩ :=
    (endpoints.far_of_connect inLinks joins declares isConnect).2
  obtain ⟨bind, inConfigs, bindInitialized⟩ := after bindConfig bindMem
  have bindStandard := (deployment.fresh bindConfig bindMem).standard
  have stored := bindDeclares.stored
  have bindRead := bindDeclares.read
  rw [← endpointKey_eq bindStandard] at stored bindRead
  obtain ⟨bindSp, bindFound⟩ := Option.isSome_iff_exists.mp (AList.lookup_isSome.mpr
    ((bindInitialized.complete farChannel stored bindBase bindRead).1 isBind))
  obtain ⟨bindPeers, bindSettled, bindHolds⟩ := bindInitialized.settled_self (Or.inl bindFound)
  refine ⟨bind, farChannel, bindSp, bindPeers, inConfigs, bindFound, ?_, ?_,
    bindInitialized.standard (deployment.fresh bindConfig bindMem), ?_, ?_, bindSettled, bindHolds,
    ?_, ?_⟩
  · rw [bindInitialized.sameService, bindInitialized.sameId]
  · rw [bindInitialized.sameService]
    exact ⟨link, inLinks, _, joins.symm⟩
  · exact bindInitialized.instanceName (deployment.fresh bindConfig bindMem)
  · exact deployment.endpoints bindConfig bindMem farChannel stored
  · rw [bindInitialized.sameService]
    exact ⟨bindBase, bindDeclares, bindKind⟩
  · rw [bindSettled.peersOf.mem_iff, bindInitialized.sameService, initialized.sameId]
    exact ⟨link, inLinks, _, joins.symm, config, member, initialized.sameService.symm, rfl⟩

/-- A linked channel with a declared endpoint is of the kind. -/
theorem LinksEndpoints.kind_of_linked (endpoints : LinksEndpoints links db kind)
    {service channel : Text} (linked : Linked links service channel) {base : SocketProperty}
    (declares : DeclaresEndpoint db service channel base) : kind base := by
  obtain ⟨link, inLinks, far, joins⟩ := linked
  obtain ⟨bindEnd, connectEnd, bindBase, connectBase, ends, ⟨bindDeclares, -, bindKind⟩,
    connectDeclares, -, connectKind⟩ := endpoints link inLinks
  have near : (service, channel) = bindEnd ∨ (service, channel) = connectEnd := by
    rcases joins with ⟨near, -⟩ | ⟨near, -⟩ <;> rcases ends with ⟨first, second⟩ | ⟨first, second⟩
    · exact Or.inl (near.trans first.symm)
    · exact Or.inr (near.trans second.symm)
    · exact Or.inr (near.trans second.symm)
    · exact Or.inl (near.trans first.symm)
  rcases near with rfl | rfl
  · exact Option.some.inj (declares.read.symm.trans bindDeclares.read) ▸ bindKind
  · exact Option.some.inj (declares.read.symm.trans connectDeclares.read) ▸ connectKind

/-- A channel that no link joins has no peers. -/
theorem PeersOf.eq_nil {service channel : Text} {peers : List Text}
    (peersOf : PeersOf links instances service channel peers)
    (notLinked : ¬ Linked links service channel) : peers = [] := by
  refine List.eq_nil_iff_forall_not_mem.mpr fun peer member => notLinked ?_
  obtain ⟨link, inLinks, far, joins, -⟩ := (peersOf.mem_iff peer).mp member
  exact ⟨link, inLinks, far, joins⟩

/-- The peers that a channel has in the registry after the exchange. -/
theorem Exchanged.lrange_eq {registry : Db} {count : SocketProperty → Nat}
    (exchanged : Exchanged links configs final registry count) {config : TopologyConfig}
    (member : config ∈ configs) {channel : Text} {sp : SocketProperty} {peers : List Text}
    (settled : Settled links instances db config channel sp peers)
    (holds : Holds final config sp peers) :
    lrange registry (instancePeerKey config.fServiceName config.fId channel) = peers := by
  have inArea : area config.fServiceName config.fId channelPrefix <+:
      instancePeerKey config.fServiceName config.fId channel := by
    rw [instancePeerKey_eq]
    exact (area_prefix_instanceChannelKey _ _ _).trans (List.prefix_append _ _)
  rw [(exchanged.marked config member _ inArea).lrange_eq, ← settled.sameName]
  exact holds.listed

end Peers

/-- When every element succeeds, so does the list, and holds the result of each. -/
theorem exists_mapM_ok {α β : Type} {items : List α} {f : α → Except Fault β}
    (ok : ∀ item ∈ items, ∃ result, f item = .ok result) :
    ∃ results, items.mapM f = .ok results ∧
      ∀ item ∈ items, ∀ result, f item = .ok result → result ∈ results := by
  induction items with
  | nil => exact ⟨[], rfl, by simp⟩
  | cons item items ih =>
      obtain ⟨result, here⟩ := ok item List.mem_cons_self
      obtain ⟨results, rest, each⟩ :=
        ih fun other member => ok other (List.mem_cons_of_mem _ member)
      refine ⟨result :: results, by rw [List.mapM_cons, here, rest]; rfl, ?_⟩
      intro other member result' found
      rcases List.mem_cons.mp member with rfl | inRest
      · rw [here] at found
        exact (Except.ok.inj found) ▸ List.mem_cons_self
      · exact List.mem_cons_of_mem _ (each other inRest result' found)

/-- When every channel without an address is resolved, so are all together. -/
theorem resolveConnectAddress_ok {config : TopologyConfig} {registry : Db}
    (each : ∀ channel sp, config.fConnectChannels.lookup channel = some sp →
      hasAddress sp = false → ∃ resolved, config.resolveChannel registry sp = .ok resolved) :
    ∃ resolved, config.resolveConnectAddress registry = .ok resolved ∧
      ∀ channel sp, config.fConnectChannels.lookup channel = some sp → hasAddress sp = false →
        ∀ result, config.resolveChannel registry sp = .ok result → result ∈ resolved := by
  obtain ⟨resolved, ok, results⟩ := @exists_mapM_ok _ _
    (((ordered config.fConnectChannels).map (·.2)).filter fun sp => !hasAddress sp)
    (config.resolveChannel registry) (by
      intro sp member
      obtain ⟨inChannels, noAddress⟩ := List.mem_filter.mp member
      obtain ⟨⟨channel, sp⟩, entry, rfl⟩ := List.mem_map.mp inChannels
      exact each channel sp (mem_ordered.mp entry) (by simpa using noAddress))
  refine ⟨resolved, ok, fun channel sp found noAddress result isResult => ?_⟩
  refine results sp (List.mem_filter.mpr ⟨?_, by simp [noAddress]⟩) result isResult
  exact List.mem_map.mpr ⟨(channel, sp), mem_ordered.mpr found, rfl⟩

end NestDaq.Topology
