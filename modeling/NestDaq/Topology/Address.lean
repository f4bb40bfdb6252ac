import NestDaq.Topology.Links
import NestDaq.Topology.Resolve

/-!
# Addresses of a peer

What `ReadPeerAddress` reads for a peer channel: the keys it derives from the
peer key, and one address for each sub-socket key in the order of the keys when
every sub-socket has an address and the host address is known.
-/

namespace NestDaq.Topology

open NestDaq.Store
open NestDaq.Registry

/-- The names of an instance: a service and an instance part that do not begin
with the channel prefix, by which the code finds the end of the instance key. -/
structure InstanceName (service instanceId : Text) : Prop where
  serviceName : Name service
  instanceName : Name instanceId
  serviceFree : ¬ channelPrefix <+: service
  instanceFree : ¬ channelPrefix <+: instanceId

/-- The ids given by index allocation are instance names. -/
theorem instanceName_of_index {service : Text} (name : Name service)
    (free : ¬ channelPrefix <+: service) (index : Nat) :
    InstanceName service (service ++ '-' :: Text.decimal index) := by
  refine ⟨name, ?_, free, ?_⟩
  · intro char member
    rcases List.mem_append.mp member with member | member
    · exact name char member
    · rcases List.mem_cons.mp member with rfl | member
      · exact Or.inr (Or.inr rfl)
      · left
        simp [Char.isAlphanum, Text.isDigit_of_mem_decimal member]
  · rintro ⟨rest, equal⟩
    exact free (Text.prefix_of_append_separator (by decide) equal)

/-- The part of an instance's socket keys in front of the index. -/
def socketKeyPrefix (service instanceId channel : Text) : Text :=
  instanceKey service instanceId ++
    ':' :: (socketPrefix ++ ':' :: (chansPrefix ++ '.' :: (channel ++ ['.'])))

/-- The key of the sub-socket of an instance's channel. -/
def instanceSocketKey (service instanceId channel : Text) (index : Nat) : Text :=
  socketKeyPrefix service instanceId channel ++ Text.decimal index

theorem instanceSocketKey_injective (service instanceId channel : Text) :
    Function.Injective (instanceSocketKey service instanceId channel) := by
  intro first second equal
  exact Text.decimal_injective (List.append_cancel_left equal)

/-- The front of the keys of one kind of an instance. -/
def area (service instanceId kind : Text) : Text :=
  instanceKey service instanceId ++ ':' :: (kind ++ [':'])

/-- The two areas of an instance have no key in common. -/
theorem not_area_socket {service instanceId key : Text}
    (inChannels : area service instanceId channelPrefix <+: key) :
    ¬ area service instanceId socketPrefix <+: key := by
  rintro ⟨rest', equal⟩
  obtain ⟨rest, rfl⟩ := inChannels
  simp only [area, List.append_assoc, List.append_cancel_left_eq, List.cons_append,
    List.cons.injEq, true_and] at equal
  exact absurd (List.cons.inj equal).1 (by decide)

theorem area_prefix_instanceChannelKey (service instanceId channel : Text) :
    area service instanceId channelPrefix <+: instanceChannelKey service instanceId channel :=
  ⟨channel, by simp [area, instanceKey_eq, instanceChannelKey_eq]⟩

/-- The keys of the sub-sockets of a channel, in the order in which they are read. -/
def subSocketKeys (service instanceId channel : Text) (count : Nat) : List Text :=
  sortUnique ((List.range count).map (instanceSocketKey service instanceId channel))

section SubSocketKeys

variable {service instanceId channel : Text} {count : Nat}

theorem mem_subSocketKeys {key : Text} : key ∈ subSocketKeys service instanceId channel count ↔
    ∃ index < count, key = instanceSocketKey service instanceId channel index := by
  simp [subSocketKeys, eq_comm]

theorem nodup_subSocketKeys : (subSocketKeys service instanceId channel count).Nodup :=
  nodup_sortUnique _

@[simp]
theorem length_subSocketKeys :
    (subSocketKeys service instanceId channel count).length = count := by
  rw [subSocketKeys, length_sortUnique_of_nodup
    (List.nodup_range.map (instanceSocketKey_injective _ _ _))]
  simp

end SubSocketKeys

theorem area_prefix_instanceSocketKey (service instanceId channel : Text) (index : Nat) :
    area service instanceId socketPrefix <+: instanceSocketKey service instanceId channel index :=
  ⟨chansPrefix ++ '.' :: (channel ++ '.' :: Text.decimal index), by
    simp [area, instanceSocketKey, socketKeyPrefix]⟩

theorem socketKeyPrefix_area {service instanceId channel : Text} :
    area service instanceId socketPrefix <+: socketKeyPrefix service instanceId channel :=
  ⟨chansPrefix ++ '.' :: (channel ++ ['.']), by simp [area, socketKeyPrefix]⟩

/-- The channel area of no instance holds a socket key of an instance. -/
theorem not_area_instanceSocketKey {service instanceId service' instanceId' : Text}
    (part : Part service) (part' : Part service') (idPart : Part instanceId)
    (idPart' : Part instanceId') (channel : Text) (index : Nat) :
    ¬ area service instanceId channelPrefix <+:
      instanceSocketKey service' instanceId' channel index := by
  rintro ⟨rest, equal⟩
  have parts : service ++ ':' :: (instanceId ++ ':' :: (channelPrefix ++ ':' :: rest)) =
      service' ++ ':' :: (instanceId' ++ ':' :: (socketPrefix ++ ':' :: (chansPrefix ++
        '.' :: (channel ++ '.' :: Text.decimal index)))) := by
    simpa [area, instanceKey_eq, instanceSocketKey, socketKeyPrefix] using equal
  obtain ⟨-, parts⟩ := Text.append_separator_inj part part' parts
  obtain ⟨-, parts⟩ := Text.append_separator_inj idPart idPart' parts
  exact absurd (Text.append_separator_inj (by decide) (by decide) parts).1 (by decide)

namespace TopologyConfig

variable {config : TopologyConfig} {db : Db}

theorem channelKey_eq (standard : config.Standard) (channel : Text) :
    config.channelKey channel = instanceChannelKey config.fServiceName config.fId channel := by
  rw [channelKey, key, standard.top, standard.separator, instanceChannelKey]

theorem peerListKey_eq (standard : config.Standard) (channel : Text) :
    config.peerListKey (config.channelKey channel) =
      instancePeerKey config.fServiceName config.fId channel := by
  rw [channelKey_eq standard, instancePeerKey_eq]
  simp [peerListKey, key, standard.separator, colon]

theorem peerListKey_instanceChannelKey (standard : config.Standard)
    (service instanceId channel : Text) :
    config.peerListKey (instanceChannelKey service instanceId channel) =
      instancePeerKey service instanceId channel := by
  simp [peerListKey, key, standard.separator, colon, instancePeerKey_eq]

theorem socketKey_eq (standard : config.Standard) (channel : Text) (index : Nat) :
    config.socketKey channel index =
      instanceSocketKey config.fServiceName config.fId channel index := by
  simp [socketKey, key, standard.top, standard.separator, instanceSocketKey, socketKeyPrefix,
    instanceKey_eq, localKey, colon]

section PeerKey

variable {service instanceId channel : Text}

/-- The end of the instance key is found where no part begins with the channel prefix. -/
theorem peerInstanceKey_of_free (standard : config.Standard) (servicePart : Part service)
    (idPart : Part instanceId) (serviceFree : ¬ channelPrefix <+: service)
    (idFree : ¬ channelPrefix <+: instanceId) :
    config.peerInstanceKey (instanceChannelKey service instanceId channel) =
      instanceKey service instanceId := by
  have notHere {part rest : Text} (free : ¬ channelPrefix <+: part) :
      ¬ (':' :: channelPrefix) <+: ':' :: (part ++ ':' :: rest) := by
    intro isPrefix
    obtain ⟨tail, equal⟩ := (List.cons_prefix_cons.mp isPrefix).2
    exact free (Text.prefix_of_append_separator part_channelPrefix equal)
  have found : Text.find (instanceChannelKey service instanceId channel) (':' :: channelPrefix) =
      some (instanceKey service instanceId).length := by
    rw [instanceChannelKey_eq, Text.find_append_of_notMem part_topPrefix,
      Text.find_cons_of_not_prefix (notHere serviceFree), Text.find_append_of_notMem servicePart,
      Text.find_cons_of_not_prefix (notHere idFree), Text.find_append_of_notMem idPart,
      Text.find_of_prefix ⟨':' :: channel, by simp⟩]
    simp [instanceKey_eq]
    omega
  rw [peerInstanceKey, standard.separator,
    show colon ++ channelPrefix = ':' :: channelPrefix from rfl,
    found, show instanceChannelKey service instanceId channel =
      instanceKey service instanceId ++ ':' :: (channelPrefix ++ ':' :: channel) by
        simp [instanceChannelKey_eq, instanceKey_eq], Text.substrTo_length]

theorem peerInstanceKey_instanceChannelKey (standard : config.Standard)
    (name : InstanceName service instanceId) :
    config.peerInstanceKey (instanceChannelKey service instanceId channel) =
      instanceKey service instanceId :=
  peerInstanceKey_of_free standard name.serviceName.part name.instanceName.part name.serviceFree
    name.instanceFree

theorem peerHealthKey_instanceChannelKey (standard : config.Standard)
    (name : InstanceName service instanceId) :
    config.peerHealthKey (instanceChannelKey service instanceId channel) =
      healthKey service instanceId := by
  rw [peerHealthKey, peerInstanceKey_instanceChannelKey standard name]
  simp [key, standard.separator, colon, instanceKey_eq, healthKey]

/-- The name of the channel stands behind the last separator. -/
theorem substrFrom_instanceChannelKey (standard : config.Standard) (part : Part channel) :
    Text.substrFrom (instanceChannelKey service instanceId channel) (Text.after
      (Text.findLastOf (instanceChannelKey service instanceId channel) config.fSeparator)) =
      channel := by
  have split : instanceChannelKey service instanceId channel =
      (instanceKey service instanceId ++ ':' :: channelPrefix) ++ ':' :: channel := by
    simp [instanceChannelKey_eq, instanceKey_eq]
  rw [split, standard.separator, Text.findLastOf_append_cons (by decide)
    (by rintro char member isColon; exact part (List.mem_singleton.mp isColon ▸ member))]
  exact Text.substrFrom_separator _ _ _

/-- The pattern of the sub-sockets when the instance key has been found. -/
theorem subSocketPattern_eq (standard : config.Standard) (part : Part channel)
    (found : config.peerInstanceKey (instanceChannelKey service instanceId channel) =
      instanceKey service instanceId) :
    config.subSocketPattern (instanceChannelKey service instanceId channel) =
      socketKeyPrefix service instanceId channel ++ ['*'] := by
  rw [subSocketPattern, substrFrom_instanceChannelKey standard part, found]
  simp [key, standard.separator, colon, socketKeyPrefix]

theorem subSocketPattern_instanceChannelKey (standard : config.Standard)
    (name : InstanceName service instanceId) (part : Part channel) :
    config.subSocketPattern (instanceChannelKey service instanceId channel) =
      socketKeyPrefix service instanceId channel ++ ['*'] :=
  subSocketPattern_eq standard part (peerInstanceKey_instanceChannelKey standard name)

/-- The front of a channel's socket keys is taken literally when the three names are. -/
theorem plain_socketKeyPrefix_iff : Glob.Plain (socketKeyPrefix service instanceId channel) ↔
    Glob.Plain service ∧ Glob.Plain instanceId ∧ Glob.Plain channel := by
  have colonPlain : ':' ∉ Glob.special := by decide
  have dotPlain : '.' ∉ Glob.special := by decide
  have top : Glob.Plain topPrefix := by decide
  have socket : Glob.Plain socketPrefix := by decide
  have chans : Glob.Plain chansPrefix := by decide
  have dot : Glob.Plain ['.'] := by decide
  rw [socketKeyPrefix, instanceKey_eq]
  simp only [Glob.plain_append_iff, Glob.plain_cons_iff, colonPlain, dotPlain, top, socket, chans,
    dot, not_false_eq_true, true_and, and_true, and_assoc]

/-- The pattern of `ReadPeerAddress` accepts the keys under the channel's socket prefix. -/
theorem mem_scan_subSocketPattern (standard : config.Standard)
    (name : InstanceName service instanceId) (channelName : Name channel) {key : Text} :
    key ∈ scan db (config.subSocketPattern (instanceChannelKey service instanceId channel)) ↔
      key ∈ db ∧ socketKeyPrefix service instanceId channel <+: key := by
  have plain := plain_socketKeyPrefix_iff.mpr
    ⟨name.serviceName.plain, name.instanceName.plain, channelName.plain⟩
  rw [subSocketPattern_instanceChannelKey standard name channelName.part, mem_scan,
    Glob.forall_stringmatch_iff_prefix_iff.mpr plain]

end PeerKey

/-- With an address in every view, each sub-socket takes one read. -/
theorem readSubSockets_of_present {views : Nat → View} {ip : Text} {keys : List Text} {time : Nat}
    (present : ∀ key ∈ keys, ∀ later, time ≤ later →
      (hget (views later).registry key (Field.text .address)).isSome) :
    ∃ addresses, config.readSubSockets views (some ip) keys time =
        .ok (addresses, time + keys.length) ∧
      List.Forall₂ (fun key address => ∃ later text, time ≤ later ∧
        hget (views later).registry key (Field.text .address) = some text ∧
          address = makeAddress text ip) keys addresses := by
  induction keys generalizing time with
  | nil => exact ⟨[], rfl, .nil⟩
  | cons key keys ih =>
      obtain ⟨text, found⟩ := Option.isSome_iff_exists.mp
        (present key List.mem_cons_self time (Nat.le_refl _))
      have polled : pollAddress views key config.attempts time = (some text, time + 1) := by
        rw [attempts, pollAddress, found]
      obtain ⟨addresses, read, each⟩ := @ih (time + 1) fun key member later after =>
        present key (List.mem_cons_of_mem _ member) later (Nat.le_of_succ_le after)
      refine ⟨makeAddress text ip :: addresses, ?_, ?_⟩
      · simp only [readSubSockets, polled, read]
        simp [Nat.add_comm, Nat.add_left_comm]
      · refine .cons ⟨time, text, Nat.le_refl _, found, rfl⟩ (each.imp ?_)
        rintro key address ⟨later, text, after, found, rfl⟩
        exact ⟨later, text, Nat.le_of_succ_le after, found, rfl⟩

/-- `ReadPeerAddress` for a channel whose sub-sockets stay in view: one entry for
each sub-socket, and one read for each beside the two of the peer. -/
theorem readPeerAddress_of_present (standard : config.Standard) {service instanceId channel : Text}
    (name : InstanceName service instanceId) (channelName : Name channel) {count : Nat}
    {views : Nat → View} {start : Nat} {ip : Text}
    (health : hget (views start).registry (healthKey service instanceId) "hostIp".toList = some ip)
    (present : ∀ later, start ≤ later → ∀ index < count,
      (hget (views later).registry (instanceSocketKey service instanceId channel index)
        (Field.text .address)).isSome)
    (only : ∀ later, start ≤ later → ∀ key ∈ (views later).registry,
      socketKeyPrefix service instanceId channel <+: key →
        ∃ index < count, key = instanceSocketKey service instanceId channel index) :
    ∃ addresses, config.readPeerAddress views start
      (instanceChannelKey service instanceId channel) =
        .ok (addresses, start + 2 + count) ∧
      List.Forall₂ (fun key address => ∃ later text, start ≤ later ∧
        hget (views later).registry key (Field.text .address) = some text ∧
          address = makeAddress text ip)
        (subSocketKeys service instanceId channel count) addresses := by
  have keysEq : sortUnique (scan (views (start + 1)).registry
      (config.subSocketPattern (instanceChannelKey service instanceId channel))) =
      subSocketKeys service instanceId channel count := by
    refine (sortUnique_eq_iff (pairwise_lt_sortUnique _)).mpr fun key => ?_
    rw [show sortUnique _ = subSocketKeys service instanceId channel count from rfl]
    rw [mem_scan_subSocketPattern standard name channelName, mem_subSocketKeys]
    constructor
    · rintro ⟨member, isPrefix⟩
      exact only (start + 1) (Nat.le_succ _) key member isPrefix
    · rintro ⟨index, below, rfl⟩
      have found := present (start + 1) (Nat.le_succ _) index below
      refine ⟨?_, List.prefix_append _ _⟩
      by_contra notMem
      rw [hget, hgetall, AList.lookup_eq_none.mpr notMem] at found
      simp at found
  obtain ⟨addresses, read, each⟩ := @readSubSockets_of_present config views ip
    (subSocketKeys service instanceId channel count) (start + 2) (by
      intro key member later after
      obtain ⟨index, below, rfl⟩ := mem_subSocketKeys.mp member
      exact present later (by omega) index below)
  refine ⟨addresses, ?_, each.imp ?_⟩
  · rw [readPeerAddress, peerHealthKey_instanceChannelKey standard name, health, keysEq, read,
      length_subSocketKeys]
  · rintro key address ⟨later, text, after, found, built⟩
    exact ⟨later, text, by omega, found, built⟩

end TopologyConfig

end NestDaq.Topology
