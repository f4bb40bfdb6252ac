import NestDaq.Topology.Freshness
import NestDaq.Topology.Record

/-!
# Peers that answer

When `ResolveConnectAddress` comes through, and when it takes an address that is not
there, between channels that count their peers into their sockets. What decides is what
the registry shows of each peer at that moment: a peer that has published its sub-sockets
has an address for every channel of its list, and one for all when the list names at most
one. A peer that has published none has no address for anybody.
-/

namespace NestDaq.Topology

open NestDaq.Registry
open NestDaq.Store
open TopologyConfig

/-- A resolution comes through exactly if it is served. Otherwise it takes an element that
is not there, or fails an assertion. -/
def EndsBy {α : Type} (served : Prop) : Except Fault α → Prop
  | .ok _ => served
  | .error fault => ¬ served ∧ (fault = .index ∨ fault = .assertion)

section EndsBy

variable {α β : Type} {served other : Prop}

theorem EndsBy.congr {result : Except Fault α} (ends : EndsBy served result)
    (same : served ↔ other) : EndsBy other result := by
  rwa [← same]

/-- A list comes through exactly if all its items are served. -/
theorem endsBy_mapM {items : List α} {f : α → Except Fault β} {serves : α → Prop}
    (each : ∀ item ∈ items, EndsBy (serves item) (f item)) :
    EndsBy (∀ item ∈ items, serves item) (items.mapM f) := by
  induction items with
  | nil =>
      intro item member
      cases member
  | cons item rest ih =>
      have here := each item List.mem_cons_self
      have others := ih fun other member => each other (List.mem_cons_of_mem _ member)
      rw [List.mapM_cons]
      simp only [List.forall_mem_cons]
      cases first : f item with
      | error fault =>
          rw [first] at here
          exact ⟨fun all => here.1 all.1, here.2⟩
      | ok value =>
          rw [first] at here
          cases more : rest.mapM f with
          | error fault =>
              rw [more] at others
              exact ⟨fun all => others.1 all.2, others.2⟩
          | ok values =>
              rw [more] at others
              exact ⟨here, others⟩

end EndsBy

/-- The registry shows a peer with the list of its own peers, as many sockets as these
are, and the addresses of its sub-sockets once they are published: one for each, and at
least one. -/
structure Shows (config : TopologyConfig) (db : Db) (peer : Text) (neighbors : List Text)
    (published : Bool) : Prop where
  listed : lrange db (config.peerListKey peer) = neighbors
  counted : ∃ property, toSocketProperty (hgetall db peer) = some property ∧
    property.numSockets = neighbors.length
  addressed : ∃ addresses, config.peerAddress db peer = .ok addresses ∧
    addresses.length = if published then max 1 neighbors.length else 0

/-- A peer has an address for a channel. -/
def Serves (me : Text) (neighbors : List Text) (published : Bool) : Prop :=
  published = true ∧ (neighbors.length ≤ 1 ∨ me ∈ neighbors)

instance (me : Text) (neighbors : List Text) (published : Bool) :
    Decidable (Serves me neighbors published) :=
  inferInstanceAs (Decidable (_ ∧ _))

theorem element_of_lt {addresses : List Text} {index : Nat} (below : index < addresses.length) :
    ∃ address, element addresses index = .ok address := by
  apply Exists.intro addresses[index]
  rw [element, List.getElem?_eq_getElem below]

theorem element_of_le {addresses : List Text} {index : Nat} (above : addresses.length ≤ index) :
    element addresses index = .error .index := by
  rw [element, List.getElem?_eq_none above]

namespace TopologyConfig

variable {config : TopologyConfig} {db : Db} {sp : SocketProperty} {me : Text}
  {neighbors : Text → List Text} {published : Text → Bool}

/-- A channel with several sockets takes an address of each of its peers. -/
theorem resolvePeers_endsBy_of_several (several : 1 < sp.numSockets) {size : Nat}
    {peers : List Text}
    (shows_ : ∀ peer ∈ peers, Shows config db peer (neighbors peer) (published peer))
    (res : SocketProperty) (peerIndex : Nat) :
    EndsBy (∀ peer ∈ peers, Serves me (neighbors peer) (published peer))
      (config.resolvePeers db sp me size peers res peerIndex false) := by
  induction peers generalizing res peerIndex with
  | nil =>
      intro peer member
      cases member
  | cons peer rest ih =>
      have shown := shows_ peer List.mem_cons_self
      have later (found : SocketProperty) :=
        ih (fun other member => shows_ other (List.mem_cons_of_mem _ member)) found (peerIndex + 1)
      rcases shown.counted with ⟨property, read, counted⟩
      rcases shown.addressed with ⟨addresses, addressed, length⟩
      have manySockets : ¬ sp.numSockets ≤ 1 := Int.not_le.mpr several
      have single : property.numSockets ≤ 1 ↔ (neighbors peer).length ≤ 1 := by
        rw [counted]
        omega
      simp only [List.forall_mem_cons]
      simp only [resolvePeers, shown.listed, read, addressed, ok_bind, manySockets, false_and,
        if_false, Bool.false_eq_true, single]
      by_cases isPublished : published peer = true
      · rw [isPublished, if_pos rfl] at length
        by_cases few : (neighbors peer).length ≤ 1
        · -- n:1
          have one : addresses.length = 1 := by omega
          rcases @element_of_lt addresses 0 (by omega) with ⟨address, found⟩
          simp only [few, if_true, one, found, ok_bind]
          exact (later _).congr ⟨fun all => ⟨⟨isPublished, Or.inl few⟩, all⟩, fun all => all.2⟩
        · -- n:m
          have many : addresses.length = (neighbors peer).length := by omega
          simp only [few, if_false, many]
          by_cases known : me ∈ neighbors peer
          · have below := List.idxOf_lt_length_iff.mpr known
            rcases element_of_lt (many ▸ below) with ⟨address, found⟩
            simp only [below, if_true, found, ok_bind]
            exact (later _).congr ⟨fun all => ⟨⟨isPublished, Or.inr known⟩, all⟩, fun all => all.2⟩
          · rw [if_neg fun below => known (List.idxOf_lt_length_iff.mp below)]
            refine ⟨?_, Or.inr rfl⟩
            rintro ⟨⟨-, fewer | listed⟩, -⟩
            · exact few fewer
            · exact known listed
      · rw [if_neg isPublished] at length
        have failed : ∀ result, result = Except.error Fault.assertion →
            EndsBy (Serves me (neighbors peer) (published peer) ∧
              ∀ other ∈ rest, Serves me (neighbors other) (published other))
              (result : Except Fault SocketProperty) := by
          rintro result rfl
          exact ⟨fun all => isPublished all.1.1, Or.inr rfl⟩
        apply failed
        simp only [length, Nat.not_lt_zero, if_false, Nat.zero_ne_one]
        split <;> rfl

/-- A channel with one socket and one peer takes the address of this peer. -/
theorem resolvePeers_endsBy_of_single (single : sp.numSockets ≤ 1) {peer : Text}
    {neighbors : List Text} {published : Bool} (shown : Shows config db peer neighbors published) :
    EndsBy (Serves me neighbors published)
      (config.resolvePeers db sp me 1 [peer] sp 0 false) := by
  rcases shown.counted with ⟨property, read, counted⟩
  rcases shown.addressed with ⟨addresses, addressed, length⟩
  have fewSockets : property.numSockets ≤ 1 ↔ neighbors.length ≤ 1 := by
    rw [counted]
    omega
  simp only [resolvePeers, shown.listed, read, addressed, ok_bind, single, true_and, false_and,
    if_false, if_true, Bool.false_eq_true, or_true, fewSockets]
  cases published with
  | false =>
      have none (index : Nat) : element addresses index = .error .index :=
        element_of_le (by rw [length]; exact Nat.zero_le _)
      have failed : ∀ result, result = Except.error Fault.index →
          EndsBy (Serves me neighbors false) (result : Except Fault SocketProperty) := by
        rintro result rfl
        exact ⟨fun serves => Bool.false_ne_true serves.1, Or.inl rfl⟩
      apply failed
      simp only [none]
      split <;> rfl
  | true =>
      rw [if_pos rfl] at length
      by_cases few : neighbors.length ≤ 1
      · -- 1:1
        rcases @element_of_lt addresses 0 (by omega) with ⟨address, found⟩
        simp only [few, if_true, found, ok_bind]
        exact ⟨rfl, Or.inl few⟩
      · -- 1:m
        simp only [few, if_false]
        by_cases known : me ∈ neighbors
        · have below := List.idxOf_lt_length_iff.mpr known
          rcases @element_of_lt addresses (neighbors.idxOf me) (by omega) with ⟨address, found⟩
          simp only [found, ok_bind]
          exact ⟨rfl, Or.inr known⟩
        · have above : neighbors.length ≤ neighbors.idxOf me := by
            by_contra below
            exact known (List.idxOf_lt_length_iff.mp (Nat.lt_of_not_le below))
          rw [@element_of_le addresses (neighbors.idxOf me) (by omega)]
          refine ⟨?_, Or.inl rfl⟩
          rintro ⟨-, fewer | listed⟩
          · exact few fewer
          · exact known listed

/-- A channel that counts its peers is resolved exactly if all of them serve it. -/
theorem resolvePeers_endsBy {peers : List Text} (counted : sp.numSockets = peers.length)
    (shows_ : ∀ peer ∈ peers, Shows config db peer (neighbors peer) (published peer)) :
    EndsBy (∀ peer ∈ peers, Serves me (neighbors peer) (published peer))
      (config.resolvePeers db sp me peers.length peers sp 0 false) := by
  rcases Nat.lt_or_ge 1 peers.length with several | few
  · exact resolvePeers_endsBy_of_several (by omega) shows_ sp 0
  · cases peers with
    | nil =>
        intro peer member
        cases member
    | cons peer rest =>
        cases rest with
        | nil =>
            apply (resolvePeers_endsBy_of_single (by simpa using counted.le)
              (shows_ peer List.mem_cons_self)).congr
            rw [List.forall_mem_singleton]
        | cons other rest =>
            simp only [List.length_cons] at few
            omega

/-- The callback comes through exactly if all channels without an address are served. -/
theorem resolveConnectAddress_endsBy {serves : SocketProperty → Prop}
    (each : ∀ channel sp, config.fConnectChannels.lookup channel = some sp →
      hasAddress sp = false → EndsBy (serves sp) (config.resolveChannel db sp)) :
    EndsBy (∀ channel sp, config.fConnectChannels.lookup channel = some sp →
      hasAddress sp = false → serves sp) (config.resolveConnectAddress db) := by
  have mem_iff {sp : SocketProperty} :
      sp ∈ ((ordered config.fConnectChannels).map (·.2)).filter (fun sp => !hasAddress sp) ↔
        (∃ channel, config.fConnectChannels.lookup channel = some sp) ∧ hasAddress sp = false := by
    rw [List.mem_filter, Bool.not_eq_true', List.mem_map]
    apply and_congr_left'
    constructor
    · rintro ⟨⟨channel, sp⟩, member, rfl⟩
      exact ⟨channel, mem_ordered.mp member⟩
    · rintro ⟨channel, found⟩
      exact ⟨(channel, sp), mem_ordered.mpr found, rfl⟩
  apply @EndsBy.congr _ (∀ sp ∈ ((ordered config.fConnectChannels).map (·.2)).filter
    (fun sp => !hasAddress sp), serves sp)
  · apply endsBy_mapM
    intro sp member
    rcases mem_iff.mp member with ⟨⟨channel, found⟩, noAddress⟩
    exact each channel sp found noAddress
  · constructor
    · intro all channel sp found noAddress
      exact all sp (mem_iff.mpr ⟨⟨channel, found⟩, noAddress⟩)
    · intro all sp member
      rcases mem_iff.mp member with ⟨⟨channel, found⟩, noAddress⟩
      exact all channel sp found noAddress

variable {service instanceId channel : Text}

/-- A peer without a sub-socket gives no address, and none is looked for at its host. -/
theorem peerAddress_of_none (standard : config.Standard) (name : InstanceName service instanceId)
    (channelName : Name channel)
    (none : ∀ key ∈ db, ¬ socketKeyPrefix service instanceId channel <+: key) :
    config.peerAddress db (instanceChannelKey service instanceId channel) = .ok [] := by
  have noKeys : sortUnique
      (scan db (config.subSocketPattern (instanceChannelKey service instanceId channel))) = [] := by
    rw [List.eq_nil_iff_forall_not_mem]
    intro key member
    rcases (mem_scan_subSocketPattern standard name channelName).mp (mem_sortUnique.mp member) with
      ⟨stored, isPrefix⟩
    exact none key stored isPrefix
  rw [peerAddress, readPeerAddress, noKeys]
  rfl

/-- A peer gives an address for each of its sub-sockets. -/
theorem exists_peerAddress (standard : config.Standard) (name : InstanceName service instanceId)
    (channelName : Name channel) {count : Nat}
    (host : (hget db (healthKey service instanceId) "hostIp".toList).isSome)
    (keys : ∀ key, key ∈ db ∧ socketKeyPrefix service instanceId channel <+: key ↔
      ∃ index < count, key = instanceSocketKey service instanceId channel index)
    (address : ∀ key ∈ db, socketKeyPrefix service instanceId channel <+: key →
      (hget db key (Field.text .address)).isSome) :
    ∃ addresses,
      config.peerAddress db (instanceChannelKey service instanceId channel) = .ok addresses ∧
        addresses.length = count := by
  rcases Option.isSome_iff_exists.mp host with ⟨ip, health⟩
  rcases @readPeerAddress_of_present config standard service instanceId channel name channelName
    count (fun _ => ⟨db, false⟩) 0 ip health
    (fun _ _ index below => by
      rcases (keys _).mpr ⟨index, below, rfl⟩ with ⟨stored, isPrefix⟩
      exact address _ stored isPrefix)
    (fun _ _ key stored isPrefix => (keys key).mp ⟨stored, isPrefix⟩) with ⟨addresses, read, each⟩
  refine ⟨addresses, ?_, ?_⟩
  · rw [peerAddress, read]
    rfl
  · rw [← each.length_eq, length_subSocketKeys]

end TopologyConfig

/-- The hash of a channel has texts of a socket only, and all of them when the socket
counts any peers. -/
structure HashOf (db : Db) (key : Text) (sp : SocketProperty) : Prop where
  texts : ∀ field value, hget db key (Field.text field) = some value → value = fieldText sp field
  whole : 0 < sp.numSockets → ∀ field, (hget db key (Field.text field)).isSome

namespace HashOf

variable {db later : Db} {key : Text} {sp : SocketProperty}

theorem congr (hash : HashOf db key sp) (same : later.lookup key = db.lookup key) :
    HashOf later key sp := by
  constructor
  · intro field value found
    rw [hget_congr same] at found
    exact hash.texts field value found
  · intro positive field
    rw [hget_congr same]
    exact hash.whole positive field

theorem of_fieldText
    (texts : ∀ field, hget db key (Field.text field) = some (fieldText sp field)) :
    HashOf db key sp := by
  constructor
  · intro field value found
    rw [texts field] at found
    exact (Option.some.inj found).symm
  · intro _ field
    rw [texts field]
    rfl

theorem of_notMem (absent : key ∉ db) (none : sp.numSockets = 0) : HashOf db key sp := by
  constructor
  · intro field value found
    rw [hget, hgetall, AList.lookup_eq_none.mpr absent] at found
    cases found
  · intro positive
    omega

/-- The number of sockets is read back. -/
theorem exists_read (hash : HashOf db key sp) (nonneg : 0 ≤ sp.numSockets) :
    ∃ property, toSocketProperty (hgetall db key) = some property ∧
      property.numSockets = sp.numSockets := by
  rcases foldlM_setField_isSome sp (hgetall db key).entries
    (by
      rintro ⟨field, value⟩ member known knownEq
      apply hash.texts known
      rw [Field.text_of_ofText knownEq]
      exact AList.mem_lookup_iff.mpr member) {} with ⟨property, read⟩
  refine ⟨property, read, ?_⟩
  have view := foldlM_setField_view (·.numSockets) .numSockets Text.stoi
    (by
      intro sp value next assigned
      rcases Option.map_eq_some_iff.mp assigned with ⟨number, parsed, rfl⟩
      exact parsed)
    (by
      intro sp value other next differs assigned
      cases other <;> first
        | exact absurd rfl differs
        | cases assigned; rfl
        | obtain ⟨_, -, rfl⟩ := Option.map_eq_some_iff.mp assigned; rfl)
    (hgetall db key).entries (hgetall db key).nodupKeys read
  cases found : (hgetall db key).entries.dlookup (Field.text .numSockets) with
  | none =>
      rw [found] at view
      have notPositive : ¬ 0 < sp.numSockets := by
        intro positive
        have isSome := hash.whole positive .numSockets
        rw [hget, AList.lookup, found] at isSome
        cases isSome
      rw [show property.numSockets = 0 from view]
      omega
  | some value =>
      rw [found] at view
      have text := hash.texts .numSockets value found
      have parsed : Text.stoi (fieldText sp .numSockets) = some property.numSockets := text ▸ view
      rw [fieldText, Text.stoi_toString] at parsed
      exact (Option.some.inj parsed).symm

/-- The mark is a text of the socket that is marked as bound. -/
theorem mark (hash : HashOf db key sp)
    (marked : ∀ field, hget later key (Field.text field) =
      if field = .bound then some ['1'] else hget db key (Field.text field)) :
    HashOf later key { sp with bound := true } := by
  constructor
  · intro field value found
    rw [marked] at found
    rw [fieldText_bound]
    split_ifs at found ⊢ with isBound
    · exact (Option.some.inj found).symm
    · exact hash.texts field value found
  · intro positive field
    rw [marked]
    split
    · rfl
    · exact hash.whole positive field

end HashOf

end NestDaq.Topology
