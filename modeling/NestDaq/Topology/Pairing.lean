import NestDaq.Topology.Wiring

/-!
# Pairing by instance index

Between two services with the same instance indices, joined by channels of one
socket each, every connect instance resolves to the bind instance of its own
index. The code compares the ranks of two keys in two sorted lists; the ranks
agree because the order of the keys is decided by the texts of the indices and
the separator behind them.
-/

namespace NestDaq.Topology

open NestDaq.Store
open NestDaq.Registry
open TopologyConfig

/-- The order of the channel keys of allocated instances is the order of the texts of
their indices with the separator behind. -/
theorem instanceChannelKey_lt_iff (service channel : Text) {first second : Nat}
    (differ : first ≠ second) :
    instanceChannelKey service (indexId service first) channel <
        instanceChannelKey service (indexId service second) channel ↔
      Text.decimal first ++ [':'] < Text.decimal second ++ [':'] := by
  have shape (index : Nat) : instanceChannelKey service (indexId service index) channel =
      (topPrefix ++ ':' :: (service ++ ':' :: (service ++ ['-']))) ++
        (Text.decimal index ++ ':' :: (channelPrefix ++ ':' :: channel)) := by
    simp [instanceChannelKey_eq, indexId]
  have free (index : Nat) : ':' ∉ Text.decimal index := fun member =>
    absurd (Text.isDigit_of_mem_decimal member) (by decide)
  rw [shape, shape, Text.append_lt_append_left_iff]
  exact Text.lt_separator_iff (free first) (free second)
    (fun same => differ (Text.decimal_injective same)) _ _ [] []

theorem instanceChannelKey_lt_iff_lt (service channel service' channel' : Text)
    (first second : Nat) :
    instanceChannelKey service (indexId service first) channel <
        instanceChannelKey service (indexId service second) channel ↔
      instanceChannelKey service' (indexId service' first) channel' <
        instanceChannelKey service' (indexId service' second) channel' := by
  by_cases same : first = second
  · subst same
    simp
  · rw [instanceChannelKey_lt_iff service channel same, instanceChannelKey_lt_iff _ _ same]

namespace TopologyConfig

variable {config : TopologyConfig} {db : Db} {sp : SocketProperty} {me : Text} {rank size : Nat}
  {address : Text → Text}

/-- A peer of one socket and one address, which has the connect channel at a rank. -/
structure OneSocket (config : TopologyConfig) (db : Db) (me : Text) (rank : Nat)
    (peer address : Text) : Prop where
  ranked : (lrange db (config.peerListKey peer)).idxOf me = rank
  addressed : config.peerAddress db peer = .ok [address]
  read : ∃ property, toSocketProperty (hgetall db peer) = some property ∧ property.numSockets ≤ 1

/-- Between channels of one socket, the loop takes the address of the peer whose
position is the rank of the connect channel. -/
theorem resolvePeers_oneSocket (single : sp.numSockets ≤ 1) (below : rank < size)
    {peers : List Text} (each : ∀ peer ∈ peers, config.OneSocket db me rank peer (address peer))
    {peerIndex : Nat} (notPassed : peerIndex ≤ rank) {peer : Text}
    (found : peers[rank - peerIndex]? = some peer) (res : SocketProperty) (is1to1 : Bool) :
    config.resolvePeers db sp me size peers res peerIndex is1to1 =
      .ok { res with address := address peer } := by
  induction peers generalizing peerIndex is1to1 with
  | nil => simp at found
  | cons first rest ih =>
      obtain ⟨ranked, addressed, property, read, few⟩ := each first List.mem_cons_self
      have later (passed : peerIndex ≠ rank) (is1to1 : Bool) :
          config.resolvePeers db sp me size rest res (peerIndex + 1) is1to1 =
            .ok { res with address := address peer } := by
        refine ih (fun other member => each other (List.mem_cons_of_mem _ member))
          (by omega) ?_ is1to1
        rwa [show rank - peerIndex = (rank - (peerIndex + 1)) + 1 by omega,
          List.getElem?_cons_succ] at found
      simp only [resolvePeers, ranked, read, addressed, ok_bind, single, few, and_self, if_true]
      by_cases here : rank = peerIndex
      · rw [here, Nat.sub_self, List.getElem?_cons_zero] at found
        obtain rfl := Option.some.inj found
        simp only [here, ne_eq, not_true, and_false, if_false, true_or, if_true]
        rfl
      · have several : size ≠ 1 := by omega
        simp only [here, several, ne_eq, not_false_eq_true, and_true, or_self, if_false]
        split
        · exact later (Ne.symm here) is1to1
        · exact later (Ne.symm here) true

end TopologyConfig

/-! ## Services with the same indices -/

/-- A channel with one socket that does not count its peers. -/
structure OneSocketChannel (base : SocketProperty) : Prop where
  notAuto : base.autoSubChannel = false
  sockets : base.numSockets ≤ 1
  address : base.address = []

/-- The address of the one sub-socket of the instance with an index. -/
def indexAddress (registry : Db) (service channel : Text) (index : Nat) : Text :=
  subSocketAddress registry service (indexId service index)
    (instanceSocketKey service (indexId service index) channel 0)

/-- The instances of a service are those with the given indices. -/
def Indexed (instances : List TopologyConfig) (service : Text) (indices : Set Nat) : Prop :=
  ∀ instanceId, (∃ config ∈ instances, config.fServiceName = service ∧ config.fId = instanceId) ↔
    ∃ index ∈ indices, instanceId = indexId service index

section Pairing

variable {link : LinkKey} {instances configs : List TopologyConfig} {db final registry : Db}
  {indices : Set Nat}

theorem LinkKey.Joins.unique (noSelf : link.serviceL ≠ link.serviceR) {near far far' : Text × Text}
    (joins : link.Joins near far) (joins' : link.Joins near far') : far = far' := by
  rcases joins with ⟨first, second⟩ | ⟨first, second⟩ <;>
    rcases joins' with ⟨first', second'⟩ | ⟨first', second'⟩
  · exact second.trans second'.symm
  · exact absurd (congrArg Prod.fst (first.symm.trans first')) noSelf
  · exact absurd (congrArg Prod.fst (first'.symm.trans first)) noSelf
  · exact second.trans second'.symm

/-- A link between two services joins one channel of each. -/
theorem LinkKey.Joins.channel_unique (noSelf : link.serviceL ≠ link.serviceR)
    {service channel channel' : Text} {far far' : Text × Text}
    (joins : link.Joins (service, channel) far) (joins' : link.Joins (service, channel') far') :
    channel = channel' := by
  rcases joins with ⟨near, -⟩ | ⟨near, -⟩ <;> rcases joins' with ⟨near', -⟩ | ⟨near', -⟩ <;>
    obtain ⟨left, rfl⟩ := Prod.mk.inj near <;> obtain ⟨right, rfl⟩ := Prod.mk.inj near'
  · rfl
  · exact absurd (left.symm.trans right) noSelf
  · exact absurd (right.symm.trans left) noSelf
  · rfl

/-- The peers of an end are the channels of the instances at the other end. -/
theorem PeersOf.mem_iff_indexed {service channel service' channel' : Text} {peers : List Text}
    (peersOf : PeersOf [link] instances service channel peers)
    (noSelf : link.serviceL ≠ link.serviceR)
    (joins : link.Joins (service, channel) (service', channel'))
    (indexed : Indexed instances service' indices) (key : Text) :
    key ∈ peers ↔ ∃ index ∈ indices,
      instanceChannelKey service' (indexId service' index) channel' = key := by
  rw [peersOf.mem_iff]
  constructor
  · rintro ⟨other, inLinks, far, joins', peer, member, peerService, rfl⟩
    obtain rfl := List.mem_singleton.mp inLinks
    obtain rfl := joins.unique noSelf joins'
    obtain ⟨index, inIndices, isId⟩ := (indexed peer.fId).mp ⟨peer, member, peerService, rfl⟩
    exact ⟨index, inIndices, by rw [isId]⟩
  · rintro ⟨index, inIndices, rfl⟩
    obtain ⟨peer, member, peerService, isId⟩ :=
      (indexed (indexId service' index)).mpr ⟨index, inIndices, rfl⟩
    exact ⟨link, List.mem_singleton_self _, (service', channel'), joins, peer, member, peerService,
      by rw [isId]⟩

theorem subSocketKeys_one (service instanceId channel : Text) :
    subSocketKeys service instanceId channel 1 =
      [instanceSocketKey service instanceId channel 0] := by
  simp [subSocketKeys, sortUnique, unique]

/-- A bind channel of one socket shows a connect channel one address. -/
theorem BindPeer.oneSocket {links : List LinkKey} {reader bind : TopologyConfig}
    {me peer channel : Text} {sp : SocketProperty} {peers : List Text}
    (bindPeer : BindPeer links instances configs db final OneSocketChannel me peer bind channel sp
      peers)
    (readerStandard : reader.Standard)
    (exchanged : Exchanged links configs final registry fun _ => 1) :
    reader.OneSocket registry me (peers.idxOf me) peer
      (subSocketAddress registry bind.fServiceName bind.fId
        (instanceSocketKey bind.fServiceName bind.fId channel 0)) := by
  obtain ⟨base, declares, oneSocket⟩ := bindPeer.kind
  have exposes := exchanged.exposes bind bindPeer.member channel sp bindPeer.found bindPeer.linked
  obtain ⟨bound, read⟩ := (exchanged.marked bind bindPeer.member _
    (area_prefix_instanceChannelKey _ _ channel)).toSocketProperty_eq
      (bindPeer.settled.sameName ▸ bindPeer.holds.properties (List.ne_nil_of_mem bindPeer.listed))
  refine ⟨?_, ?_, { sp with bound := bound }, ?_, ?_⟩
  · rw [bindPeer.key, peerListKey_instanceChannelKey readerStandard,
      exchanged.lrange_eq bindPeer.member bindPeer.settled bindPeer.holds]
  · rw [bindPeer.key, exposes.peerAddress_eq readerStandard bindPeer.name bindPeer.channelName,
      subSocketKeys_one]
    rfl
  · rw [bindPeer.key, read]
  · obtain ⟨-, sockets, -⟩ := bindPeer.settled.of_declares bindPeer.standard declares
    rw [if_neg (by simp [oneSocket.notAuto])] at sockets
    exact sockets ▸ oneSocket.sockets

/-- Two services with the same instance indices whose channels of one socket are
joined by the only link. -/
structure Paired (link : LinkKey) (instances : List TopologyConfig) (db : Db)
    (bindService bindChannel connectService connectChannel : Text) (indices : Set Nat) : Prop where
  joins : link.Joins (connectService, connectChannel) (bindService, bindChannel)
  bindDeclares : ∃ base, DeclaresEndpoint db bindService bindChannel base ∧
    base.method = "bind".toList ∧ OneSocketChannel base
  connectDeclares : ∃ base, DeclaresEndpoint db connectService connectChannel base ∧
    base.method = "connect".toList ∧ OneSocketChannel base
  bindIndices : Indexed instances bindService indices
  connectIndices : Indexed instances connectService indices

variable {bindService bindChannel connectService connectChannel : Text}

theorem Paired.endpoints
    (paired : Paired link instances db bindService bindChannel connectService connectChannel
      indices) : LinksEndpoints [link] db OneSocketChannel := by
  intro other member
  obtain rfl := List.mem_singleton.mp member
  obtain ⟨bindBase, bindDeclares⟩ := paired.bindDeclares
  obtain ⟨connectBase, connectDeclares⟩ := paired.connectDeclares
  exact ⟨(bindService, bindChannel), (connectService, connectChannel), bindBase, connectBase,
    paired.joins.symm, bindDeclares, connectDeclares⟩

/-- The connect instance of an index resolves to the bind instance of the index. -/
theorem Paired.resolveChannel_eq {connect : TopologyConfig}
    (paired : Paired link instances db bindService bindChannel connect.fServiceName connectChannel
      indices)
    (deployment : Deployment [link] instances db)
    (after : ∀ config ∈ instances, ∃ config' ∈ configs,
      Initialized [link] instances db config config' final)
    (exchanged : Exchanged [link] configs final registry fun _ => 1)
    {config : TopologyConfig} (member : config ∈ instances) (inConfigs : connect ∈ configs)
    (initialized : Initialized [link] instances db config connect final)
    {index : Nat} (inIndices : index ∈ indices)
    (isId : connect.fId = indexId connect.fServiceName index) {sp : SocketProperty}
    (found : connect.fConnectChannels.lookup connectChannel = some sp) :
    hasAddress sp = false ∧ connect.resolveChannel registry sp = .ok { sp with
      address := indexAddress registry bindService bindChannel index } := by
  have noSelf := deployment.noSelf link (List.mem_singleton_self _)
  have standard := initialized.standard (deployment.fresh config member)
  have linked : Linked [link] connect.fServiceName connectChannel :=
    ⟨link, List.mem_singleton_self _, _, paired.joins⟩
  obtain ⟨peers, base, settled, holds, declares, oneSocket, isConnect, bindPeers⟩ :=
    deployment.connect_peers paired.endpoints after member initialized found linked
  obtain rfl := settled.sameName
  have listed := exchanged.lrange_eq inConfigs settled holds
  obtain ⟨-, sockets, address⟩ := settled.of_declares standard declares
  rw [if_neg (by simp [oneSocket.notAuto])] at sockets
  have single : sp.numSockets ≤ 1 := sockets ▸ oneSocket.sockets
  have noAddress : sp.address = [] := by
    rw [address (by rw [isConnect]; decide), oneSocket.address]
  -- The peers are the bind instances, and the peers of each are the connect instances.
  have members := settled.peersOf.mem_iff_indexed noSelf paired.joins paired.bindIndices
  have bindPart : Part bindService ∧ Part bindChannel := by
    have formed := deployment.declares.wellFormed link (List.mem_singleton_self _)
    rcases paired.joins with ⟨-, far⟩ | ⟨-, far⟩ <;> obtain ⟨rfl, rfl⟩ := Prod.mk.inj far
    · exact ⟨formed.serviceR.1, formed.channelR.1⟩
    · exact ⟨formed.serviceL.1, formed.channelL.1⟩
  obtain ⟨me, isMe⟩ : ∃ me, me =
    instanceChannelKey connect.fServiceName connect.fId sp.name := ⟨_, rfl⟩
  have shown : ∀ other ∈ indices, ∃ bindPeers,
      PeersOf [link] instances bindService bindChannel bindPeers ∧ me ∈ bindPeers ∧
      connect.OneSocket registry me (bindPeers.idxOf me)
        (instanceChannelKey bindService (indexId bindService other) bindChannel)
        (indexAddress registry bindService bindChannel other) := by
    intro other inOthers
    obtain ⟨bind, channel, bindSp, itsPeers, bindPeer⟩ :=
      bindPeers _ ((members _).mpr ⟨other, inOthers, rfl⟩)
    rw [← isMe] at bindPeer
    obtain ⟨rfl, isBindId, rfl⟩ := instanceChannelKey_injective bindPart.1
      bindPeer.name.serviceName.part bindPart.2 bindPeer.channelName.part bindPeer.key
    have oneSocket := bindPeer.oneSocket standard exchanged
    rw [← isBindId] at oneSocket
    exact ⟨itsPeers, bindPeer.settled.peersOf, bindPeer.listed, oneSocket⟩
  obtain ⟨connectPeers, connectPeersOf, inPeers, here⟩ := shown index inIndices
  have connectMembers := connectPeersOf.mem_iff_indexed noSelf paired.joins.symm
    paired.connectIndices
  have each : ∀ peer ∈ peers, ∃ address,
      connect.OneSocket registry me (connectPeers.idxOf me) peer address := by
    intro peer inPeers
    obtain ⟨other, inOthers, rfl⟩ := (members peer).mp inPeers
    obtain ⟨others, othersOf, -, oneSocket⟩ := shown other inOthers
    rw [othersOf.unique connectPeersOf] at oneSocket
    exact ⟨_, oneSocket⟩
  choose! address oneSocket using each
  -- The ranks in the two lists agree.
  have rank : peers[connectPeers.idxOf me]? =
      some (instanceChannelKey bindService (indexId bindService index) bindChannel) := by
    rw [isMe, isId]
    exact getElem?_idxOf_of_lt_iff connectPeersOf.sorted settled.peersOf.sorted connectMembers
      members (fun _ _ _ _ => instanceChannelKey_lt_iff_lt _ _ _ _ _ _) inIndices
  have found' : instanceChannelKey bindService (indexId bindService index) bindChannel ∈ peers :=
    List.mem_of_getElem? rank
  obtain ⟨below, -⟩ := List.getElem?_eq_some_iff.mp rank
  refine ⟨by simp [hasAddress, noAddress], ?_⟩
  rw [resolveChannel, peerListKey_eq standard, channelKey_eq standard, listed, ← isMe,
    resolvePeers_oneSocket single below oneSocket (Nat.zero_le _) (by rwa [Nat.sub_zero])]
  have sameAddress := here.addressed.symm.trans (oneSocket _ found').addressed
  rw [(List.cons.inj (Except.ok.inj sameAddress)).1]

/-- Every connect instance resolves its channel to the sub-socket of the bind instance
with the same index. -/
def PairedByIndex (configs : List TopologyConfig) (registry : Db)
    (bindService bindChannel connectService connectChannel : Text) (indices : Set Nat) : Prop :=
  ∀ index ∈ indices, (∃ connect ∈ configs, connect.fServiceName = connectService ∧
      connect.fId = indexId connectService index) ∧
    ∀ connect ∈ configs, connect.fServiceName = connectService →
      connect.fId = indexId connectService index → ∃ resolved sp,
        connect.resolveConnectAddress registry = .ok resolved ∧
        connect.fConnectChannels.lookup connectChannel = some sp ∧
        { sp with address := indexAddress registry bindService bindChannel index } ∈ resolved

/-- The services are paired by their indices, whatever the indices and the order in
which the instances were initialized. -/
theorem pairing_by_index
    (paired : Paired link instances db bindService bindChannel connectService connectChannel
      indices)
    (deployment : Deployment [link] instances db) {order : List TopologyConfig}
    (perm : order.Perm instances) (run : initializeAll order db = some (configs, final))
    (exchanged : Exchanged [link] configs final registry fun _ => 1) :
    PairedByIndex configs registry bindService bindChannel connectService connectChannel
      indices := by
  obtain ⟨after, before⟩ := deployment.initializeAll perm run
  have noSelf := deployment.noSelf link (List.mem_singleton_self _)
  intro index inIndices
  constructor
  · obtain ⟨config, member, service, isId⟩ :=
      (paired.connectIndices (indexId connectService index)).mpr ⟨index, inIndices, rfl⟩
    obtain ⟨connect, inConfigs, initialized⟩ := after config member
    exact ⟨connect, inConfigs, initialized.sameService.trans service,
      initialized.sameId.trans isId⟩
  · rintro connect inConfigs rfl isId
    obtain ⟨config, member, initialized⟩ := before connect inConfigs
    have standard := initialized.standard (deployment.fresh config member)
    have configStandard := (deployment.fresh config member).standard
    obtain ⟨base, declares, isConnect, -⟩ := paired.connectDeclares
    have stored := declares.stored
    have read := declares.read
    rw [initialized.sameService, ← endpointKey_eq configStandard] at stored read
    obtain ⟨sp, found⟩ := Option.isSome_iff_exists.mp (AList.lookup_isSome.mpr
      ((initialized.complete connectChannel stored base read).2 isConnect))
    obtain ⟨noAddress, isResolved⟩ := paired.resolveChannel_eq deployment after exchanged member
      inConfigs initialized inIndices isId found
    have resolves : ∀ channel sp, connect.fConnectChannels.lookup channel = some sp →
        hasAddress sp = false → ∃ resolved, connect.resolveChannel registry sp = .ok resolved := by
      intro channel other found' _
      by_cases linked : Linked [link] connect.fServiceName channel
      · obtain rfl : channel = connectChannel := by
          obtain ⟨other, member, far, joins⟩ := linked
          obtain rfl := List.mem_singleton.mp member
          exact joins.channel_unique noSelf paired.joins
        exact ⟨_, (paired.resolveChannel_eq deployment after exchanged member inConfigs initialized
          inIndices isId found').2⟩
      · obtain ⟨peers, settled, holds⟩ := initialized.settled_self (Or.inr found')
        have none := settled.peersOf.eq_nil linked
        refine ⟨other, ?_⟩
        rw [resolveChannel, settled.sameName, peerListKey_eq standard, channelKey_eq standard,
          exchanged.lrange_eq inConfigs settled holds, none]
        rfl
    obtain ⟨resolved, ok, results⟩ := resolveConnectAddress_ok resolves
    exact ⟨resolved, sp, ok, found, results connectChannel sp found noAddress _ isResolved⟩

end Pairing

theorem twins_paired (reserved : Bool) :
    Paired (twinLink reserved) twins (twinRegistry false reserved)
    "Snk".toList "in".toList "Src".toList (twinChannel reserved) {index | index < 2} where
  joins := Or.inl ⟨rfl, rfl⟩
  bindDeclares := ⟨{ method := "bind".toList },
    ⟨by cases reserved <;> decide +kernel, by cases reserved <;> decide +kernel⟩, rfl,
    rfl, show (0 : Int) ≤ 1 by decide, rfl⟩
  connectDeclares := ⟨{ method := "connect".toList },
    ⟨by cases reserved <;> decide +kernel, by cases reserved <;> decide +kernel⟩, rfl,
    rfl, show (0 : Int) ≤ 1 by decide, rfl⟩
  bindIndices := fun instanceId => by
    rw [mem_twins]
    exact and_iff_right (Or.inr rfl)
  connectIndices := fun instanceId => by
    rw [mem_twins]
    exact and_iff_right (Or.inl rfl)

/-- Two sources whose channel is called `presence` do not resolve to the sinks of their
indices. -/
theorem pairing_presence_not_by_index :
    Setting [twinLink true] twins (twinRegistry false true) ∧
      Paired (twinLink true) twins (twinRegistry false true) "Snk".toList "in".toList "Src".toList
        (twinChannel true) {index | index < 2} ∧
      ∃ configs final, initializeAll twins (twinRegistry false true) = some (configs, final) ∧
        Exchanged [twinLink true] configs final (twinExchange false true final) (fun _ => 1) ∧
        ¬ PairedByIndex configs
          (twinExchange false true final) "Snk".toList "in".toList "Src".toList
          (twinChannel true) {index | index < 2} := by
  obtain ⟨configs, final, run, -, exchanged⟩ :=
    @twins_exchanged false true (fun _ => 1) fun _ _ => rfl
  refine ⟨twins_setting false true, twins_paired true, configs, final, run,
    exchanged, fun byIndex => ?_⟩
  -- The first source is given the address of the second sink.
  have resolved : (initializeAll twins (twinRegistry false true)).map (fun result =>
      decide (∀ config ∈ result.1, config.fServiceName = "Src".toList →
        config.fId = indexId "Src".toList 0 →
          ((config.resolveConnectAddress (twinExchange false true result.2)).toOption.getD []).map
            (·.address) =
            ["tcp://10.0.0.1:5001".toList] ∧
          indexAddress (twinExchange false true result.2) "Snk".toList "in".toList 0 =
            "tcp://10.0.0.1:5000".toList)) = some true := by
    decide +kernel
  rw [run, Option.map_some, Option.some.injEq, decide_eq_true_eq] at resolved
  obtain ⟨⟨connect, member, service, isId⟩, each⟩ := byIndex 0 (by decide)
  obtain ⟨addresses, expected⟩ := resolved connect member service isId
  obtain ⟨results, sp, ok, -, inResults⟩ := each connect member service isId
  have inAddresses := List.mem_map_of_mem (f := SocketProperty.address) inResults
  rw [ok] at addresses
  rw [show results.map SocketProperty.address = _ from addresses, expected] at inAddresses
  have same := List.mem_singleton.mp inAddresses
  exact absurd (show "tcp://10.0.0.1:5000".toList = "tcp://10.0.0.1:5001".toList from same)
    (by decide)

/-- With another name for their channel, the sources resolve to the sinks of their
indices. -/
theorem pairing_twins_by_index : ∃ configs final,
    initializeAll twins (twinRegistry false false) = some (configs, final) ∧
      PairedByIndex configs (twinExchange false false final) "Snk".toList "in".toList "Src".toList
        (twinChannel false) {index | index < 2} := by
  obtain ⟨configs, final, run, -, exchanged⟩ :=
    @twins_exchanged false false (fun _ => 1) fun _ _ => rfl
  have unreserved : ∀ config ∈ twins,
      config.endpointKey presencePrefix ∉ twinRegistry false false := by
    decide +kernel
  exact ⟨configs, final, run, pairing_by_index (twins_paired false)
    ⟨twins_setting false false, unreserved⟩ (List.Perm.refl _) run exchanged⟩

end NestDaq.Topology
