import NestDaq.Topology.Bound
import NestDaq.Topology.PeerNames

/-!
# Addresses of configured peers

What a peer string of `connect-config` adds to the addresses of its channel,
for an instance that has written the addresses of its sub-sockets. The key of
one sub-socket is built as the writer builds it. The pattern for all of them
leaves out the front of the property names, so that it finds none.
-/

namespace NestDaq.Topology

open NestDaq.Registry
open NestDaq.Store

theorem IsWord.isName {text : Text} (word : IsWord text) : Name text := by
  intro char member
  have isWord := word.2 char member
  rw [Topology.isWord, Bool.or_eq_true, decide_eq_true_eq] at isWord
  rcases isWord with alphanumeric | underscore
  · exact Or.inl alphanumeric
  · exact Or.inr (Or.inl underscore)

theorem name_instanceId {name index : Text} (word : IsWord name) (digits : IsIndex index) :
    Name (instanceId name index) := by
  intro char member
  rw [instanceId, List.append_assoc, List.mem_append] at member
  rcases member with member | member
  · exact word.isName char member
  · rcases List.mem_cons.mp member with rfl | member
    · exact Or.inr (Or.inr rfl)
    · exact digits.isWord.isName char member

/-- The parts of a peer name are names, the channel of characters of words. -/
structure PeerName.Accepted (peer : PeerName) : Prop where
  service : Name peer.service
  id : Name peer.id
  channel : Name peer.channel

/-- The parts of a peer string that the parser accepts. -/
theorem parsePeer_accepted {p : Text} {peer : PeerName} (parsed : parsePeer p = some peer) :
    peer.Accepted := by
  rcases parsePeer_words parsed with ⟨service, ⟨name, index, word, digits, id⟩, channel⟩
  exact ⟨service.isName, id ▸ name_instanceId word digits, channel.isName⟩

namespace TopologyConfig

variable {config : TopologyConfig} {views : Nat → View} {time : Nat} {db : Db}
  {service id channel subChannelIndex key peerIP : Text}

theorem pollAddress_of_found {address : Text}
    (found : hget (views time).registry key (Field.text .address) = some address) :
    pollAddress views key config.attempts time = (some address, time + 1) := by
  rw [attempts, pollAddress, found]

theorem pollAddress_of_absent
    (absent : ∀ later, time ≤ later →
      hget (views later).registry key (Field.text .address) = none) (attempts : Nat) :
    (pollAddress views key attempts time).1 = none := by
  induction attempts generalizing time with
  | zero => rfl
  | succ attempts ih =>
      rw [pollAddress, absent time (Nat.le_refl _)]
      cases (views time).canceled with
      | true => rfl
      | false => exact ih fun later after => absent later (Nat.le_of_succ_le after)

theorem findPeerIP_eq (standard : config.Standard) :
    config.findPeerIP db service id = (hget db (healthKey service id) "hostIp".toList).getD [] := by
  simp [findPeerIP, key, standard.top, standard.separator, healthKey]

theorem findAddressKey_eq (standard : config.Standard) :
    config.findAddressKey service id channel subChannelIndex =
      socketKeyPrefix service id channel ++ subChannelIndex := by
  simp [findAddressKey, TopologyConfig.key, standard.top, standard.separator, socketKeyPrefix,
    instanceKey_eq, colon]

theorem findAddressesPattern_eq (standard : config.Standard) :
    config.findAddressesPattern service id channel =
      area service id socketPrefix ++ channel := by
  simp [findAddressesPattern, TopologyConfig.key, standard.top, standard.separator, area,
    instanceKey_eq, colon]

/-- Without a host address nothing is found. -/
theorem findAddress_of_noHost (noHost : config.findPeerIP (views time).registry service id = []) :
    config.findAddress views time service id channel subChannelIndex = ([], time + 1) := by
  rw [findAddress]
  exact if_pos noHost

theorem findAddress_of_found {address : Text}
    (host : config.findPeerIP (views time).registry service id = peerIP) (known : peerIP ≠ [])
    (found : hget (views (time + 1)).registry
      (config.findAddressKey service id channel subChannelIndex) (Field.text .address) =
        some address) :
    (config.findAddress views time service id channel subChannelIndex).1 =
      makeAddress address peerIP := by
  rw [findAddress]
  simp only [host, if_neg known, pollAddress_of_found found]

theorem findAddress_of_absent
    (absent : ∀ later, time ≤ later → hget (views later).registry
      (config.findAddressKey service id channel subChannelIndex) (Field.text .address) = none) :
    (config.findAddress views time service id channel subChannelIndex).1 = [] := by
  have polled : (pollAddress views (config.findAddressKey service id channel subChannelIndex)
      config.attempts (time + 1)).1 = none :=
    pollAddress_of_absent (fun later after => absent later (Nat.le_of_succ_le after)) _
  rw [findAddress]
  split
  · rfl
  · split
    · rename_i equal
      rw [equal] at polled
      cases polled
    · rfl

/-- Without a key to read, `findAddresses` finds nothing. -/
theorem findAddresses_of_noKeys
    (noKeys : scan (views (time + 1)).registry
      (config.findAddressesPattern service id channel) = []) :
    (config.findAddresses views time service id channel).1 = [] := by
  rw [findAddresses]
  simp only [noKeys]
  split <;> rfl

/-- The instance has run `WriteBindAddress` in a registry without socket keys of
its own, with a number of sub-sockets of one channel. Since a time, the keys of
these sub-sockets are as they were written, the socket keys of the instance are
keys of sub-sockets, and its host address is not changed. -/
structure WroteBindAddress (peer : TopologyConfig) (channel : Text) (count : Nat)
    (stored : Nat → Option Text) (host : Option Text) (views : Nat → View) (start : Nat) :
    Prop where
  standard : peer.Standard
  keyed : ∀ name sp, peer.fBindChannels.lookup name = some sp → sp.name = name ∧ '.' ∉ name
  bind : channel ∈ peer.fBindChannels
  written : ∃ db properties, SubSockets properties channel count ∧
    (∀ key ∈ db, ¬ area peer.fServiceName peer.fId socketPrefix <+: key) ∧
    (∀ index, stored index = hget (execAll db (peer.writeBindAddress properties))
      (peer.socketKey channel index) (Field.text .address)) ∧
    ∀ later, start ≤ later → ∀ key,
      socketKeyPrefix peer.fServiceName peer.fId channel <+: key →
        (views later).registry.lookup key =
          (execAll db (peer.writeBindAddress properties)).lookup key
  sockets : ∀ later, start ≤ later → ∀ key ∈ (views later).registry,
    area peer.fServiceName peer.fId socketPrefix <+: key →
      area peer.fServiceName peer.fId socketPrefix ++ chansPrefix ++ ['.'] <+: key
  health : ∀ later, start ≤ later →
    hget (views later).registry (healthKey peer.fServiceName peer.fId) "hostIp".toList = host

namespace WroteBindAddress

variable {peer : TopologyConfig} {count start : Nat} {stored : Nat → Option Text}
  {host : Option Text}

/-- A sub-socket of the channel has an address in the registry. -/
theorem isSome_stored (wrote : WroteBindAddress peer channel count stored host views start)
    {index : Nat} (below : index < count) : (stored index).isSome := by
  rcases wrote.written with ⟨db, properties, subSockets, _, storedEq, _⟩
  rcases Option.isSome_iff_exists.mp (AList.lookup_isSome.mpr wrote.bind) with ⟨sp, found⟩
  have named := (wrote.keyed channel sp found).1
  have inCommands {command : Command}
      (written : command ∈ peer.writeSubSocket properties sp index) :
      command ∈ peer.writeBindAddress properties := by
    have inRange : index ∈ List.range (subSocketCount properties sp.name) := by
      rw [named, subSockets.sockets.subSocketCount_eq]
      exact List.mem_range.mpr below
    exact List.mem_flatMap.mpr ⟨(channel, sp), mem_ordered.mpr found,
      List.mem_append_left _ (List.mem_flatMap.mpr ⟨index, inRange, written⟩)⟩
  rcases @address_mem_writeSubSocket peer properties sp index
    (named.symm ▸ subSockets.address index below) with ⟨fields, written, hasAddress⟩
  rw [storedEq, ← named]
  apply isSome_hget_of_mem db (inCommands written) hasAddress
  intro items pushed
  have noPush := @rpush_notMem_publication peer [] properties wrote.standard
    (peer.socketKey sp.name index) (by
      rw [socketKey_eq wrote.standard]
      exact area_prefix_instanceSocketKey _ _ _ _) items
  exact noPush pushed

/-- The address of a sub-socket stays what was written. -/
theorem hget_eq (wrote : WroteBindAddress peer channel count stored host views start) {later : Nat}
    (after : start ≤ later) (index : Nat) :
    hget (views later).registry
      (instanceSocketKey peer.fServiceName peer.fId channel index) (Field.text .address) =
        stored index := by
  rcases wrote.written with ⟨db, properties, _, _, storedEq, kept⟩
  rw [storedEq, socketKey_eq wrote.standard]
  exact hget_congr (kept later after _ (List.prefix_append _ _)) _

/-- The keys in front of the sub-sockets of the channel are those of its sub-sockets. -/
theorem only (wrote : WroteBindAddress peer channel count stored host views start)
    (channelFree : '.' ∉ channel) {later : Nat} (after : start ≤ later) {key : Text}
    (member : key ∈ (views later).registry)
    (isPrefix : socketKeyPrefix peer.fServiceName peer.fId channel <+: key) :
    ∃ index < count, key = instanceSocketKey peer.fServiceName peer.fId channel index := by
  rcases wrote.written with ⟨db, properties, subSockets, clear, _, kept⟩
  rw [mem_of_lookup_eq (kept later after key isPrefix)] at member
  rcases mem_of_mem_execAll db _ member with before | ⟨command, written, rfl⟩
  · exact absurd (socketKeyPrefix_area.trans isPrefix) (clear key before)
  · have sub := socketKey_of_mem_writeBindAddress wrote.standard channelFree wrote.keyed written
      isPrefix
    rwa [subSockets.sockets.subSocketCount_eq] at sub

/-- The pattern of `findAddresses` fits no key of the instance. -/
theorem scan_findAddressesPattern
    (wrote : WroteBindAddress peer channel count stored host views start)
    (standard : config.Standard) (service : Name peer.fServiceName) (id : Name peer.fId)
    (channelName : Name channel) {later : Nat} (after : start ≤ later) :
    scan (views later).registry
      (config.findAddressesPattern peer.fServiceName peer.fId channel) = [] := by
  rw [List.eq_nil_iff_forall_not_mem]
  intro key found
  have plain : Glob.Plain (area peer.fServiceName peer.fId socketPrefix ++ channel) := by
    have separate {before after : Text} (beforePlain : Glob.Plain before)
        (afterPlain : Glob.Plain after) : Glob.Plain (before ++ ':' :: after) :=
      beforePlain.append (afterPlain.cons (by decide))
    rw [area, instanceKey_eq]
    apply Glob.Plain.append _ channelName.plain
    exact separate (separate (by decide) (separate service.plain id.plain)) (by decide)
  rw [findAddressesPattern_eq standard, mem_scan, Glob.stringmatch_plain plain] at found
  rcases found with ⟨member, rfl⟩
  have chans := wrote.sockets later after _ member (List.prefix_append _ _)
  rw [List.append_assoc, List.prefix_append_right_inj] at chans
  exact channelName.dotFree (chans.subset (by simp))

end WroteBindAddress

theorem pollAddress_time (attempts : Nat) : time ≤ (pollAddress views key attempts time).2 := by
  induction attempts generalizing time with
  | zero => exact Nat.le_refl _
  | succ attempts ih =>
      rw [pollAddress]
      split
      · exact Nat.le_succ _
      · split
        · exact Nat.le_succ _
        · exact Nat.le_trans (Nat.le_succ _) ih

theorem findAddress_time :
    time ≤ (config.findAddress views time service id channel subChannelIndex).2 := by
  have polled := @pollAddress_time views (time + 1)
    (config.findAddressKey service id channel subChannelIndex) config.attempts
  rw [findAddress]
  split
  · exact Nat.le_succ _
  · split
    · rename_i equal
      rw [equal] at polled
      exact Nat.le_of_succ_le polled
    · rename_i equal
      rw [equal] at polled
      exact Nat.le_of_succ_le polled

theorem readAddresses_time (keys : List Text) :
    time ≤ (config.readAddresses views peerIP keys time).2 := by
  induction keys generalizing time with
  | nil => exact Nat.le_refl _
  | cons key keys ih =>
      have polled := @pollAddress_time views time key config.attempts
      rw [readAddresses]
      split
      · rename_i equal
        rw [equal] at polled
        exact Nat.le_trans polled ih
      · rename_i equal
        rw [equal] at polled
        exact Nat.le_trans polled ih

theorem findAddresses_time : time ≤ (config.findAddresses views time service id channel).2 := by
  rw [findAddresses]
  split
  · exact Nat.le_succ _
  · exact Nat.le_trans (Nat.le_add_right _ 2) (readAddresses_time _)

theorem peerStringAddresses_time {autoSubChannel : Bool} {p : Text} :
    time ≤ (config.peerStringAddresses views time autoSubChannel p).2 := by
  rw [peerStringAddresses]
  split
  · exact Nat.le_refl _
  · exact findAddress_time
  · split
    · exact findAddresses_time
    · exact findAddress_time

theorem addressList_time {autoSubChannel : Bool} (peers : List Text) :
    time ≤ (config.addressList views autoSubChannel peers time).2 := by
  induction peers generalizing time with
  | nil => exact Nat.le_refl _
  | cons p peers ih => exact Nat.le_trans peerStringAddresses_time ih

/-- Each peer string adds its addresses behind those of the strings in front of it. -/
theorem addressList_split (autoSubChannel : Bool) (before rest : List Text) (p : Text) :
    ∃ middle later, time ≤ middle ∧
      (config.addressList views autoSubChannel (before ++ p :: rest) time).1 =
        (config.addressList views autoSubChannel before time).1 ++
          (config.peerStringAddresses views middle autoSubChannel p).1 ++
            (config.addressList views autoSubChannel rest later).1 := by
  induction before generalizing time with
  | nil => exact ⟨time, _, Nat.le_refl _, rfl⟩
  | cons first before ih =>
      rcases @ih (config.peerStringAddresses views time autoSubChannel first).2 with
        ⟨middle, later, after, equal⟩
      apply Exists.intro middle
      apply Exists.intro later
      apply And.intro (Nat.le_trans peerStringAddresses_time after)
      simp only [List.cons_append, addressList, equal, List.append_assoc]

/-- `ConfigConnect` leaves a channel of the option with the addresses that its peer
strings add, and keeps the other channels. -/
theorem configChannel_spec {child : Text × Message.PTree} {peer : Message.PTree}
    (hasPeers : child.2.getChild peerField = some peer) :
    ∃ config' option later, config.configChannel views time child = some (config', option, later) ∧
      time ≤ later ∧
      config'.fConnectChannels.lookup child.1 =
        some (addAddresses ((config.fConnectChannels.lookup child.1).getD {})
          (config.addressList views
            ((config.fConnectChannels.lookup child.1).getD {}).autoSubChannel (peerList peer)
              time).1) ∧
      ∀ other, other ≠ child.1 →
        config'.fConnectChannels.lookup other = config.fConnectChannels.lookup other := by
  refine ⟨_, _, _, by rw [configChannel, hasPeers]; rfl, addressList_time _, ?_, ?_⟩
  · exact AList.lookup_insert _
  · intro other differs
    exact AList.lookup_insert_ne differs

/-! ## What a peer string adds -/

/-- The peer string adds what the instance published: all addresses that
`ReadPeerAddress` returns, one for each of its sub-sockets, or the address of the
sub-socket it asks for. -/
def AddsPublished (config : TopologyConfig) (views : Nat → View) (time : Nat)
    (autoSubChannel : Bool) (p : Text) (name : PeerName) (count : Nat)
    (stored : Nat → Option Text) (host : Option Text) : Prop :=
  let added := (config.peerStringAddresses views time autoSubChannel p).1
  if name.subChannelIndex = none ∧ autoSubChannel = true then
    ∃ addresses later,
      config.readPeerAddress views time
        (instanceChannelKey name.service name.id name.channel) = .ok (addresses, later) ∧
        addresses.length = count ∧ added.Perm addresses
  else
    ∃ address ip, stored name.subChannel = some address ∧ host = some ip ∧
      added = [makeAddress address ip]

/-- The peer string asks for one sub-socket, an index in it is written as a decimal
number without leading zeros, and the host address of the instance and the stored
address are not empty. -/
structure AsksForOne (autoSubChannel : Bool) (name : PeerName) (stored : Nat → Option Text)
    (host : Option Text) : Prop where
  single : autoSubChannel = true → name.subChannelIndex ≠ none
  decimal : ∀ text, name.subChannelIndex = some text → ∃ index, text = Text.decimal index
  hasHost : host.getD [] ≠ []
  hasAddress : stored name.subChannel ≠ some []

/-- One sub-socket: its address is found exactly when its index is written as the
writer of the key writes it. -/
theorem found_findAddress_iff {peer : TopologyConfig} {count start : Nat}
    {stored : Nat → Option Text} {host : Option Text} (standard : config.Standard)
    (wrote : WroteBindAddress peer channel count stored host views start)
    (channelFree : '.' ∉ channel) (after : start ≤ time) {text : Text} {value : Nat}
    (isValue : ∀ index, text = Text.decimal index → index = value) (below : value < count) :
    (∃ address ip, stored value = some address ∧ host = some ip ∧
        (found (config.findAddress views time peer.fServiceName peer.fId channel text)).1 =
          [makeAddress address ip]) ↔
      (∃ index, text = Text.decimal index) ∧ host.getD [] ≠ [] ∧ stored value ≠ some [] := by
  have hostEq : config.findPeerIP (views time).registry peer.fServiceName peer.fId =
      host.getD [] := by
    rw [findPeerIP_eq standard, wrote.health time after]
  have read (later : Nat) (from_ : time ≤ later) (index : Nat)
      (isText : text = Text.decimal index) :
      hget (views later).registry (config.findAddressKey peer.fServiceName peer.fId channel text)
        (Field.text .address) = stored value := by
    rw [findAddressKey_eq standard, isText, isValue index isText]
    exact wrote.hget_eq (Nat.le_trans after from_) value
  constructor
  · rintro ⟨address, ip, hasAddress, hasHost, added⟩
    have nonempty : (config.findAddress views time peer.fServiceName peer.fId channel text).1 ≠
        [] := by
      intro empty
      rw [found, if_pos empty] at added
      cases added
    have hostKnown : host.getD [] ≠ [] := by
      intro noHost
      rw [findAddress_of_noHost (hostEq.trans noHost)] at nonempty
      exact nonempty rfl
    have isDecimal : ∃ index, text = Text.decimal index := by
      by_contra notDecimal
      apply nonempty (findAddress_of_absent _)
      intro later from_
      rw [findAddressKey_eq standard]
      by_contra present
      have member : socketKeyPrefix peer.fServiceName peer.fId channel ++ text ∈
          (views later).registry := by
        by_contra absent
        rw [hget, hgetall, AList.lookup_eq_none.mpr absent] at present
        exact present rfl
      rcases wrote.only channelFree (Nat.le_trans after from_) member (List.prefix_append _ _) with
        ⟨index, _, equal⟩
      exact notDecimal ⟨index, List.append_cancel_left equal⟩
    rcases isDecimal with ⟨index, isText⟩
    apply And.intro ⟨index, isText⟩ (And.intro hostKnown _)
    intro emptyAddress
    have readEmpty := read (time + 1) (Nat.le_succ _) index isText
    rw [emptyAddress] at readEmpty
    rw [findAddress_of_found hostEq hostKnown readEmpty, makeAddress_nil] at nonempty
    exact nonempty rfl
  · rintro ⟨⟨index, isText⟩, hostKnown, addressKnown⟩
    rcases Option.isSome_iff_exists.mp (wrote.isSome_stored below) with ⟨address, hasAddress⟩
    cases host with
    | none => exact absurd rfl hostKnown
    | some ip =>
        have readAddress := read (time + 1) (Nat.le_succ _) index isText
        rw [hasAddress] at readAddress
        have reads := findAddress_of_found hostEq hostKnown readAddress
        have nonempty : address ≠ [] := by
          rintro rfl
          exact addressKnown hasAddress
        have added : (config.findAddress views time peer.fServiceName peer.fId channel text).1 ≠
            [] := by
          rw [reads]
          exact makeAddress_ne_nil nonempty _
        exact ⟨address, ip, hasAddress, rfl, by rw [found, if_neg added, reads]; rfl⟩

/-- A peer string without an index adds nothing to a channel with `autoSubChannel`. -/
theorem not_addsPublished {config peer : TopologyConfig} (standard : config.Standard)
    {views : Nat → View} {name : PeerName} {count start time : Nat}
    {stored : Nat → Option Text} {host : Option Text}
    (wrote : WroteBindAddress peer name.channel count stored host views start)
    (sameService : name.service = peer.fServiceName) (sameId : name.id = peer.fId) {p : Text}
    (parsed : parsePeer p = some name) (after : start ≤ time)
    (noIndex : name.subChannelIndex = none) (positive : 0 < count) :
    ¬ AddsPublished config views time true p name count stored host := by
  have accepted := parsePeer_accepted parsed
  rcases name with ⟨service, id, channel, subChannelIndex⟩
  simp only at sameService sameId wrote noIndex
  subst sameService sameId noIndex
  have nothing : (config.peerStringAddresses views time true p).1 = [] := by
    simp only [peerStringAddresses, parsed, if_true]
    exact findAddresses_of_noKeys (wrote.scan_findAddressesPattern standard accepted.service
      accepted.id accepted.channel (Nat.le_succ_of_le after))
  intro adds
  simp only [AddsPublished, and_self, if_true] at adds
  rcases adds with ⟨addresses, later, _, length, perm⟩
  rw [nothing] at perm
  cases perm.nil_eq
  rw [List.length_nil] at length
  omega

/-- A peer string of an instance that has written its addresses: it adds what the
instance published exactly when it asks for one sub-socket in the way in which the
keys are written. -/
theorem addsPublished_iff {config peer : TopologyConfig} (standard : config.Standard)
    {views : Nat → View} {name : PeerName} {count start time : Nat}
    {stored : Nat → Option Text} {host : Option Text}
    (wrote : WroteBindAddress peer name.channel count stored host views start)
    (sameService : name.service = peer.fServiceName) (sameId : name.id = peer.fId) {p : Text}
    (parsed : parsePeer p = some name) (below : name.subChannel < count) (after : start ≤ time)
    (autoSubChannel : Bool) :
    AddsPublished config views time autoSubChannel p name count stored host ↔
      AsksForOne autoSubChannel name stored host := by
  have accepted := parsePeer_accepted parsed
  have zero : ['0'] = Text.decimal 0 := by decide +kernel
  rcases name with ⟨service, id, channel, subChannelIndex⟩
  simp only at sameService sameId wrote
  subst sameService sameId
  have one {text : Text} (isValue : ∀ index, text = Text.decimal index →
      index = (PeerName.mk peer.fServiceName peer.fId channel subChannelIndex).subChannel) :=
    found_findAddress_iff standard wrote accepted.channel.dotFree after isValue below
  cases subChannelIndex with
  | some text =>
      have isValue (index : Nat) (isText : text = Text.decimal index) : index =
          (PeerName.mk peer.fServiceName peer.fId channel (some text)).subChannel := by
        simp [PeerName.subChannel, isText, Text.leadingNat_decimal]
      simp only [AddsPublished, peerStringAddresses, parsed, reduceCtorEq, false_and, if_false]
      rw [one isValue]
      constructor
      · rintro ⟨decimal, hasHost, hasAddress⟩
        exact ⟨fun _ => Option.some_ne_none text, fun _ same => Option.some.inj same ▸ decimal,
          hasHost, hasAddress⟩
      · rintro ⟨_, decimal, hasHost, hasAddress⟩
        exact ⟨decimal text rfl, hasHost, hasAddress⟩
  | none =>
      cases autoSubChannel with
      | false =>
          have isValue (index : Nat) (isText : ['0'] = Text.decimal index) : index =
              (PeerName.mk peer.fServiceName peer.fId channel none).subChannel :=
            Text.decimal_injective (isText.symm.trans zero)
          simp only [AddsPublished, peerStringAddresses, parsed, Bool.false_eq_true, and_false,
            if_false]
          rw [one isValue]
          constructor
          · rintro ⟨_, hasHost, hasAddress⟩
            exact ⟨fun isAuto => absurd isAuto Bool.false_ne_true,
              fun _ isIndex => absurd isIndex.symm (Option.some_ne_none _), hasHost, hasAddress⟩
          · rintro ⟨_, _, hasHost, hasAddress⟩
            exact ⟨⟨0, zero⟩, hasHost, hasAddress⟩
      | true =>
          constructor
          · intro adds
            exact absurd adds (not_addsPublished standard wrote rfl rfl parsed after rfl
              (Nat.zero_lt_of_lt below))
          · rintro ⟨single, _⟩
            exact absurd rfl (single rfl)

/-- The sink with its channel. -/
def boundSink : TopologyConfig :=
  { sink with
    fBindChannels := AList.singleton "in".toList { name := "in".toList, method := "bind".toList } }

/-- The registry after `WriteBindAddress` of the sink. -/
def boundRegistry : Db :=
  execAll (sinkRegistry false) (boundSink.writeBindAddress sinkProperties)

/-- The address of a sub-socket of the sink in the registry. -/
def sinkStored (index : Nat) : Option Text :=
  hget boundRegistry (boundSink.socketKey "in".toList index) (Field.text .address)

/-- A sampler that is configured by `connect-config`. -/
def configuredSampler : TopologyConfig :=
  { fTopPrefix := topPrefix, fServiceName := "Sampler".toList, fId := "Sampler-0".toList }

/-- The sink's channel in `connect-config`. -/
def sinkName : PeerName :=
  ⟨"Sink".toList, "Sink-0".toList, "in".toList, none⟩

theorem parsePeer_sink : parsePeer "Sink-0:in".toList = some sinkName := by
  decide

theorem boundSink_wrote : WroteBindAddress boundSink sinkName.channel 1 sinkStored
    (some "10.0.0.1".toList) (fun _ => ⟨boundRegistry, false⟩) 0 := by
  constructor
  · exact ⟨rfl, rfl⟩
  · intro name sp found
    rcases AList.mem_lookup_iff.mp found with _ | ⟨_, impossible⟩
    · exact ⟨rfl, by decide⟩
    · nomatch impossible
  · exact List.mem_singleton_self _
  · refine ⟨sinkRegistry false, sinkProperties, sink_subSockets, ?_, fun _ => rfl,
      fun _ _ _ _ => rfl⟩
    exact fun key member => (sink_unpublished false key member).2
  · intro later _ key member
    have keys : ∀ key ∈ boundRegistry.keys,
        area boundSink.fServiceName boundSink.fId socketPrefix <+: key →
          area boundSink.fServiceName boundSink.fId socketPrefix ++ chansPrefix ++ ['.'] <+:
            key := by
      decide +kernel
    exact keys key (AList.mem_keys.mp member)
  · intro later _
    decide +kernel

/-- A sampler with `autoSubChannel` does not get the address of the sink. -/
theorem sink_addresses_not_added :
    WroteBindAddress boundSink sinkName.channel 1 sinkStored (some "10.0.0.1".toList)
        (fun _ => ⟨boundRegistry, false⟩) 0 ∧
      parsePeer "Sink-0:in".toList = some sinkName ∧
      ¬ AddsPublished configuredSampler
        (fun _ => ⟨boundRegistry, false⟩) 0 true "Sink-0:in".toList sinkName 1
        sinkStored (some "10.0.0.1".toList) :=
  ⟨boundSink_wrote, parsePeer_sink,
    not_addsPublished ⟨rfl, rfl⟩ boundSink_wrote rfl rfl parsePeer_sink (Nat.le_refl 0) rfl
      Nat.one_pos⟩

/-- A sampler without `autoSubChannel` gets it. -/
theorem sink_address_added :
    AddsPublished configuredSampler
      (fun _ => ⟨boundRegistry, false⟩) 0 false "Sink-0:in".toList sinkName 1
      sinkStored (some "10.0.0.1".toList) := by
  apply (addsPublished_iff ⟨rfl, rfl⟩ boundSink_wrote rfl rfl parsePeer_sink Nat.one_pos
    (Nat.le_refl 0) false).mpr
  have address : sinkStored 0 = some "tcp://*:5555".toList := by
    decide +kernel
  exact ⟨nofun, nofun, by decide, by
    rw [show sinkName.subChannel = 0 from rfl, address]
    decide⟩

end TopologyConfig

end NestDaq.Topology
