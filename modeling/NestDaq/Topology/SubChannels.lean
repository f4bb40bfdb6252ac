import NestDaq.Topology.Address
import NestDaq.Topology.Exchange

/-!
# Sub-channels by index

`ReadPeerAddress` returns the addresses of the sub-sockets in the order of their keys, and
`ResolveConnectAddress` takes the one at the rank that the peer gives to the instance. The
keys end with the decimal numbers of the sub-sockets, and texts are ordered as in a
dictionary: `10` stands in front of `2`. Up to ten sub-sockets both orders are one.
-/

namespace NestDaq.Topology

open NestDaq.Registry
open NestDaq.Store

/-- The indices below `n` in the order of their decimal numbers as texts. -/
def dictionaryOrder (n : Nat) : List Nat :=
  (sortUnique ((List.range n).map Text.decimal)).map fun text => (Text.leadingNat text).getD 0

theorem map_decimal_dictionaryOrder (n : Nat) :
    (dictionaryOrder n).map Text.decimal = sortUnique ((List.range n).map Text.decimal) := by
  have same : ∀ text ∈ sortUnique ((List.range n).map Text.decimal),
      (Text.decimal ∘ fun text => (Text.leadingNat text).getD 0) text = id text := by
    intro text member
    rcases List.mem_map.mp (mem_sortUnique.mp member) with ⟨index, _, rfl⟩
    simp [Text.leadingNat_decimal]
  rw [dictionaryOrder, List.map_map, List.map_congr_left same, List.map_id]

theorem mem_dictionaryOrder {n index : Nat} : index ∈ dictionaryOrder n ↔ index < n := by
  have texts : Text.decimal index ∈ (dictionaryOrder n).map Text.decimal ↔ index < n := by
    rw [map_decimal_dictionaryOrder, mem_sortUnique,
      List.mem_map_of_injective Text.decimal_injective,
      List.mem_range]
  rwa [List.mem_map_of_injective Text.decimal_injective] at texts

theorem pairwise_dictionaryOrder (n : Nat) :
    (dictionaryOrder n).Pairwise fun first second => Text.decimal first < Text.decimal second := by
  rw [← List.pairwise_map, map_decimal_dictionaryOrder]
  exact pairwise_lt_sortUnique _

theorem dictionaryOrder_of_le_ten {n : Nat} (few : n ≤ 10) : dictionaryOrder n = List.range n := by
  have each : ∀ m < 11, dictionaryOrder m = List.range m := by
    decide +kernel
  exact each n (Nat.lt_succ_of_le few)

/-- From the eleventh index on the orders differ. -/
theorem dictionaryOrder_eq_range_iff {n : Nat} : dictionaryOrder n = List.range n ↔ n ≤ 10 := by
  constructor
  · intro same
    by_contra many
    have sorted := pairwise_dictionaryOrder n
    rw [same] at sorted
    have wrong := List.pairwise_iff_getElem.mp sorted 2 10 (by simp; omega) (by simp; omega)
      (by decide)
    rw [List.getElem_range, List.getElem_range] at wrong
    revert wrong
    decide +kernel
  · exact dictionaryOrder_of_le_ten

/-- In dictionary order the addresses are the same as in the order of the indices. -/
def KeepsPlaces (n : Nat) (address : Nat → Text) : Prop :=
  (dictionaryOrder n).map address = (List.range n).map address

theorem keepsPlaces_of_le_ten {n : Nat} (few : n ≤ 10) (address : Nat → Text) :
    KeepsPlaces n address :=
  congrArg (List.map address) (dictionaryOrder_of_le_ten few)

/-- Different addresses keep their places only up to ten. -/
theorem keepsPlaces_iff_le_ten {n : Nat} {address : Nat → Text}
    (distinct : Set.InjOn address (Set.Iio n)) : KeepsPlaces n address ↔ n ≤ 10 := by
  constructor
  · intro keeps
    apply dictionaryOrder_eq_range_iff.mp
    apply List.ext_getElem (by simpa using congrArg List.length keeps)
    intro i inOrder inRange
    apply distinct (mem_dictionaryOrder.mp (List.getElem_mem inOrder))
      (List.mem_range.mp (List.getElem_mem inRange))
    have same := congrArg (fun addresses => addresses[i]?) keeps
    simp only [List.getElem?_map, List.getElem?_eq_getElem inOrder,
      List.getElem?_eq_getElem inRange] at same
    exact Option.some.inj same
  · exact fun few => keepsPlaces_of_le_ten few address

/-- The keys of the sub-sockets are read in dictionary order. -/
theorem subSocketKeys_eq (service instanceId channel : Text) (n : Nat) :
    subSocketKeys service instanceId channel n =
      (dictionaryOrder n).map (instanceSocketKey service instanceId channel) := by
  apply (sortUnique_eq_iff _).mpr
  · intro key
    rw [List.mem_map, List.mem_map]
    simp only [List.mem_range, mem_dictionaryOrder]
  · rw [List.pairwise_map]
    apply (pairwise_dictionaryOrder n).imp
    intro first second below
    exact (Text.append_lt_append_left_iff _ _ _).mpr below

namespace TopologyConfig

variable {config : TopologyConfig} {db : Db} {service instanceId channel ip : Text} {n : Nat}
  {stored : Nat → Text}

/-- The hashes of the sub-sockets of a channel hold addresses, and the host address of
its instance is known. -/
structure HoldsSubSockets (db : Db) (service instanceId channel : Text) (n : Nat)
    (stored : Nat → Text) (ip : Text) : Prop where
  health : hget db (healthKey service instanceId) "hostIp".toList = some ip
  stored : ∀ index < n, hget db (instanceSocketKey service instanceId channel index)
    (Field.text .address) = some (stored index)
  only : ∀ key ∈ db.keys, socketKeyPrefix service instanceId channel <+: key →
    ∃ index < n, key = instanceSocketKey service instanceId channel index

/-- The channel with an address that the 1:m branch assigns and the n:m branch appends. -/
def takes (sp res : SocketProperty) (address : Text) : SocketProperty :=
  if sp.numSockets ≤ 1 then { res with address := address } else appendAddress res address

/-- Entry `i` is the address of sub-socket `i`, and the loop over the peers takes for the
instance at position `k` among the neighbours of a peer with several sub-sockets the
address of sub-socket `k`. -/
structure AddressedByIndex (config : TopologyConfig) (db : Db) (peer : Text) (n : Nat)
    (address : Nat → Text) : Prop where
  entries : ∃ addresses, config.peerAddress db peer = .ok addresses ∧ addresses.length = n ∧
    ∀ index < n, addresses[index]? = some (address index)
  connected : ∀ property, toSocketProperty (hgetall db peer) = some property →
    1 < property.numSockets → ∀ me k, (lrange db (config.peerListKey peer)).idxOf me = k → k < n →
      ∀ sp res size rest peerIndex is1to1, (is1to1 = true → k = peerIndex) →
        config.resolvePeers db sp me size (peer :: rest) res peerIndex is1to1 =
          config.resolvePeers db sp me size rest (takes sp res (address k)) (peerIndex + 1) is1to1

theorem eq_map_of_forall₂ {α β : Type} {related : α → β → Prop} {f : α → β} {items : List α}
    {values : List β} (each : List.Forall₂ related items values)
    (determined : ∀ item ∈ items, ∀ value, related item value → value = f item) :
    values = items.map f := by
  induction each with
  | nil => rfl
  | cons first _ ih =>
      rw [List.map_cons, determined _ List.mem_cons_self _ first,
        ih fun item member => determined item (List.mem_cons_of_mem _ member)]

/-- The vector is in dictionary order. -/
theorem peerAddress_eq (standard : config.Standard) (name : InstanceName service instanceId)
    (channelName : Name channel)
    (holds : HoldsSubSockets db service instanceId channel n stored ip) :
    config.peerAddress db (instanceChannelKey service instanceId channel) =
      .ok ((dictionaryOrder n).map fun index => makeAddress (stored index) ip) := by
  have present : ∀ later, 0 ≤ later → ∀ index < n,
      (hget db (instanceSocketKey service instanceId channel index)
        (Field.text .address)).isSome := by
    intro _ _ index below
    rw [holds.stored index below]
    rfl
  rcases @readPeerAddress_of_present config standard service instanceId channel name channelName n
    (fun _ => ⟨db, false⟩) 0 ip holds.health present
    (fun _ _ key member => holds.only key (AList.mem_keys.mp member)) with ⟨addresses, read, each⟩
  rw [peerAddress, read]
  apply congrArg Except.ok
  rw [subSocketKeys_eq, List.forall₂_map_left_iff] at each
  apply eq_map_of_forall₂ each
  rintro index member address ⟨_, text, _, found, rfl⟩
  rw [holds.stored index (mem_dictionaryOrder.mp member)] at found
  rw [Option.some.inj found]

/-- A peer with several sub-sockets: the loop takes the address at the instance's rank. -/
theorem resolvePeers_cons {peer : Text} {property : SocketProperty} {addresses : List Text}
    (read : toSocketProperty (hgetall db peer) = some property) (several : 1 < property.numSockets)
    (addressed : config.peerAddress db peer = .ok addresses) {me : Text} {k : Nat}
    (rank : (lrange db (config.peerListKey peer)).idxOf me = k) {address : Text}
    (found : addresses[k]? = some address) (sp res : SocketProperty) (size : Nat)
    (rest : List Text) (peerIndex : Nat) (is1to1 : Bool) (here : is1to1 = true → k = peerIndex) :
    config.resolvePeers db sp me size (peer :: rest) res peerIndex is1to1 =
      config.resolvePeers db sp me size rest (takes sp res address) (peerIndex + 1) is1to1 := by
  have below : k < addresses.length := (List.getElem?_eq_some_iff.mp found).1
  have peerSockets : ¬ property.numSockets ≤ 1 := Int.not_le.mpr several
  have notPassed : ¬ (is1to1 = true ∧ k ≠ peerIndex) := fun both => both.2 (here both.1)
  simp only [resolvePeers, rank, if_neg notPassed, read, addressed, ok_bind, peerSockets, and_false,
    if_false, below, if_true, element_of_getElem? found, takes]
  by_cases single : sp.numSockets ≤ 1
  · -- 1:m
    rw [if_pos single, if_pos single]
  · -- n:m
    rw [if_neg single, if_neg single]

/-- The address of a sub-socket of the sink. -/
def sinkAddress (index : Nat) : Text :=
  "tcp://10.0.0.1:55".toList ++ Text.decimal index

/-- A registry in which the sink has published its channel with the peers and its
sub-sockets. -/
def sinkSockets (n : Nat) : Db :=
  execAll ∅ (.hset (healthKey "Sink".toList "Sink-0".toList)
    [("hostIp".toList, "10.0.0.1".toList)] ::
    .hset (instanceChannelKey "Sink".toList "Sink-0".toList "in".toList)
      [(Field.text .numSockets, Text.decimal n)] ::
    .rpush (instancePeerKey "Sink".toList "Sink-0".toList "in".toList)
      ((List.range n).map fun index =>
        instanceChannelKey "Sampler".toList ("Sampler-".toList ++ Text.decimal index)
          "out".toList) ::
    (List.range n).map fun index =>
      .hset (instanceSocketKey "Sink".toList "Sink-0".toList "in".toList index)
        [(Field.text .address, sinkAddress index)])

/-- A sampler that connects to the sink. -/
def sinkReader : TopologyConfig :=
  { fTopPrefix := topPrefix, fServiceName := "Sampler".toList, fId := "Sampler-0".toList }

theorem sinkSockets_holds {n : Nat} (few : n = 11 ∨ n = 2) : HoldsSubSockets (sinkSockets n)
    "Sink".toList "Sink-0".toList "in".toList n sinkAddress "10.0.0.1".toList := by
  rcases few with rfl | rfl
  · constructor <;> decide +kernel
  · constructor <;> decide +kernel

end TopologyConfig

end NestDaq.Topology
