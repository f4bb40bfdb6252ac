import NestDaq.Topology.Bound
import NestDaq.Topology.ChannelProperties
import NestDaq.Topology.Links
import NestDaq.Topology.Publication

/-!
# Keys that an instance leaves in the registry

The instance registers the keys of `WriteChannel` and of the sub-sockets, lets
them expire, and deletes them in `Reset`. The mark that `WriteBindAddress` sets
in the hash of a bind channel does neither: a channel without peers has no hash
before, and the mark creates one that stays.
-/

namespace NestDaq.Topology

open NestDaq.Registry
open NestDaq.Store
open NestDaq.Transition
open TopologyConfig

/-! ## Keys of the pipelines -/

namespace Instance

@[simp]
theorem createdKeys_append (first second : List Command) :
    createdKeys (first ++ second) = createdKeys first ++ createdKeys second :=
  List.filterMap_append

@[simp]
theorem expiredKeys_append (first second : List Command) :
    expiredKeys (first ++ second) = expiredKeys first ++ expiredKeys second :=
  List.filterMap_append

theorem createdKeys_flatMap {α : Type} (items : List α) (commands : α → List Command) :
    createdKeys (items.flatMap commands) = items.flatMap fun item => createdKeys (commands item) :=
  List.filterMap_flatMap

theorem expiredKeys_flatMap {α : Type} (items : List α) (commands : α → List Command) :
    expiredKeys (items.flatMap commands) = items.flatMap fun item => expiredKeys (commands item) :=
  List.filterMap_flatMap

end Instance

namespace TopologyConfig

open Instance

variable (config : TopologyConfig)

/-- `WriteChannel` creates the keys that it registers, -/
theorem createdKeys_writeChannel (sp : SocketProperty) (peers : List Text) :
    createdKeys (config.writeChannel sp peers) = config.channelKeys sp peers := by
  unfold writeChannel channelKeys
  split <;> rfl

/-- and lets them expire. -/
theorem expiredKeys_writeChannel (sp : SocketProperty) (peers : List Text) :
    expiredKeys (config.writeChannel sp peers) = config.channelKeys sp peers := by
  unfold writeChannel channelKeys
  split <;> rfl

/-- `WriteAddress` creates the keys that it registers, and those of what follows the
sub-sockets of a channel. -/
theorem createdKeys_writeAddress (properties : Properties) (channels : MQChannel)
    (f : Text → List Command) (key : Text) :
    key ∈ createdKeys (config.writeAddress properties channels f) ↔
      key ∈ config.addressKeys properties channels ∨
        ∃ name ∈ channels, key ∈ createdKeys (f name) := by
  have subSocket (sp : SocketProperty) (index : Nat) :
      createdKeys (config.writeSubSocket properties sp index) = [config.socketKey sp.name index] :=
    rfl
  simp only [writeAddress, addressKeys, createdKeys_flatMap, createdKeys_append, subSocket,
    List.mem_flatMap, List.mem_append, List.mem_singleton, List.mem_map]
  constructor
  · rintro ⟨channel, member, ⟨index, below, rfl⟩ | follows⟩
    · exact Or.inl ⟨channel, member, index, below, rfl⟩
    · have named : channel.1 ∈ (ordered channels).map Prod.fst :=
        List.mem_map.mpr ⟨channel, member, rfl⟩
      exact Or.inr ⟨channel.1, mem_keys_ordered.mp named, follows⟩
  · rintro (⟨channel, member, index, below, rfl⟩ | ⟨name, known, follows⟩)
    · exact ⟨channel, member, Or.inl ⟨index, below, rfl⟩⟩
    · rcases List.mem_map.mp (mem_keys_ordered.mpr known) with ⟨channel, member, rfl⟩
      exact ⟨channel, member, Or.inr follows⟩

/-- The keys that `WriteAddress` registers expire. -/
theorem mem_expiredKeys_writeAddress {properties : Properties} {channels : MQChannel}
    {f : Text → List Command} {key : Text}
    (registered : key ∈ config.addressKeys properties channels) :
    key ∈ expiredKeys (config.writeAddress properties channels f) := by
  have subSocket (sp : SocketProperty) (index : Nat) :
      expiredKeys (config.writeSubSocket properties sp index) = [config.socketKey sp.name index] :=
    rfl
  simp only [addressKeys, List.mem_flatMap, List.mem_map] at registered
  rcases registered with ⟨channel, member, index, below, rfl⟩
  simp only [writeAddress, expiredKeys_flatMap, expiredKeys_append, subSocket, List.mem_flatMap,
    List.mem_append, List.mem_singleton]
  exact ⟨channel, member, Or.inl ⟨index, below, rfl⟩⟩

/-- The keys that `Initialize` registers. -/
theorem publishChannels_fRegisteredKeys (config : TopologyConfig) (db : Db)
    (channels : List SocketProperty) :
    (config.publishChannels db channels).1.fRegisteredKeys =
      config.fRegisteredKeys ++ (config.publishChannels db channels).2.2.flatMap fun record =>
        config.channelKeys record.sp record.peers := by
  induction channels generalizing config db with
  | nil => simp [publishChannels]
  | cons sp rest ih =>
      rcases registerChannel_eq config (config.configureChannel db sp) (config.peers db sp.name)
        with ⟨bind, connect, keys, registered⟩
      have registeredKeys : keys = config.fRegisteredKeys ++
          config.channelKeys (config.configureChannel db sp) (config.peers db sp.name) :=
        (congrArg fRegisteredKeys registered).symm
      rw [publishChannels_cons]
      simp only
      rw [ih, registered, registeredKeys, List.flatMap_cons, List.append_assoc]
      rfl

/-- The keys that `Initialize` registers are those of its pipelines. -/
theorem initializeTopology_fRegisteredKeys (config : TopologyConfig) (db : Db) :
    (config.initializeTopology db).1.fRegisteredKeys =
      config.fRegisteredKeys ++ ((config.initializeTopology db).2.getD []).flatMap fun record =>
        config.channelKeys record.sp record.peers := by
  let invariant (current : TopologyConfig) : Prop :=
    current.fRegisteredKeys = config.fRegisteredKeys ∧ current.channelKeys = config.channelKeys
  have channelKept {current next : TopologyConfig} {read : Option SocketProperty}
      (holds : invariant current) (added : read.map current.addChannel = some next) :
      invariant next := by
    rcases Option.map_eq_some_iff.mp added with ⟨sp, _, rfl⟩
    rcases addChannel_eq current sp with ⟨bind, connect, equal⟩
    rw [equal]
    exact holds
  have linkKept {current next : TopologyConfig} {read : Option LinkProperty}
      (holds : invariant current) (added : read.map current.addLink = some next) :
      invariant next := by
    rcases Option.map_eq_some_iff.mp added with ⟨lp, _, rfl⟩
    rcases addLink_eq current lp with ⟨links, equal⟩
    rw [equal]
    exact holds
  apply @initializeTopology_rule config db invariant (fun result => result.1.fRegisteredKeys =
    config.fRegisteredKeys ++ (result.2.getD []).flatMap fun record =>
      config.channelKeys record.sp record.peers) channelKept linkKept _ _ ⟨rfl, rfl⟩
  · rintro current ⟨sameKeys, _⟩
    simp [sameKeys]
  · rintro current ⟨sameKeys, sameChannels⟩
    rw [publishChannels_fRegisteredKeys, sameKeys, sameChannels]
    rfl

/-- With this registry, the channel has a link to a service that has a registered instance. -/
def FindsPeer (registry : Db) (channel : Text) : Prop :=
  ∃ link ∈ ordered config.fLinks, skips link.2 channel = false ∧
    config.presenceKeys registry (farEnd link.2 channel).1 ≠ []

instance (registry : Db) (channel : Text) : Decidable (config.FindsPeer registry channel) :=
  inferInstanceAs (Decidable (∃ link ∈ ordered config.fLinks, _))

/-- `Initialize` comes to every bind channel and finds a peer for it. The peers of another
channel do if the key of its peer list is the key of the bind channel. -/
def PeersFound (db : Db) : Prop :=
  ∀ name ∈ (config.initializeTopology db).1.fBindChannels.keys,
    ∃ record ∈ (config.initializeTopology db).2.getD [],
      (name = record.sp.name ∨
        config.channelKey name = config.peerListKey (config.channelKey record.sp.name)) ∧
      (config.initializeTopology db).1.FindsPeer record.registry record.sp.name

instance (db : Db) : Decidable (config.PeersFound db) :=
  inferInstanceAs (Decidable (∀ name ∈ (config.initializeTopology db).1.fBindChannels.keys, _))

/-- A channel has peers if one of its links leads to a registered instance. -/
theorem peers_ne_nil_iff (db : Db) (channel : Text) :
    config.peers db channel ≠ [] ↔ config.FindsPeer db channel := by
  have sorted : config.peers db channel = [] ↔ config.contributedPeers db channel = [] := by
    simp only [List.eq_nil_iff_forall_not_mem, peers, mem_sortUnique]
  rw [ne_eq, sorted, contributedPeers, List.flatMap_eq_nil_iff]
  simp only [not_forall, FindsPeer, exists_prop]
  apply exists_congr
  intro link
  apply and_congr_right
  intro _
  rw [linkPeers]
  cases skips link.2 channel <;> simp

/-- The peers of a record are those that its channel has at its turn. -/
theorem peers_of_mem_initializeTopology {config : TopologyConfig} {db : Db} {record : Configured}
    (member : record ∈ (config.initializeTopology db).2.getD []) :
    record.peers = (config.initializeTopology db).1.peers record.registry record.sp.name := by
  apply @initializeTopology_rule config db (fun _ => True)
    (fun result => ∀ record ∈ result.2.getD [],
      record.peers = result.1.peers record.registry record.sp.name)
    (fun _ _ => trivial) (fun _ _ => trivial) _ _ trivial record member
  · rintro _ _ record member
    cases member
  · rintro current _ record member
    have published := @publishChannels_spec current db current.channelList
    rcases published.record record member with ⟨sp, -, isConfigured, arePeers⟩
    rcases published.identity with ⟨bind, connect, keys, equal⟩
    rw [arePeers, equal, isConfigured, configureChannel_name]
    rfl

/-- `Initialize` leaves the keys of the channels as they are. -/
theorem initializeTopology_channelKey (config : TopologyConfig) (db : Db) :
    (config.initializeTopology db).1.channelKey = config.channelKey := by
  let invariant (current : TopologyConfig) : Prop := current.channelKey = config.channelKey
  have channelKept {current next : TopologyConfig} {read : Option SocketProperty}
      (holds : invariant current) (added : read.map current.addChannel = some next) :
      invariant next := by
    rcases Option.map_eq_some_iff.mp added with ⟨sp, _, rfl⟩
    rcases addChannel_eq current sp with ⟨bind, connect, equal⟩
    rw [equal]
    exact holds
  have linkKept {current next : TopologyConfig} {read : Option LinkProperty}
      (holds : invariant current) (added : read.map current.addLink = some next) :
      invariant next := by
    rcases Option.map_eq_some_iff.mp added with ⟨lp, _, rfl⟩
    rcases addLink_eq current lp with ⟨links, equal⟩
    rw [equal]
    exact holds
  apply @initializeTopology_rule config db invariant
    (fun result => result.1.channelKey = config.channelKey) channelKept linkKept _ _ rfl
  · exact fun _ same => same
  · intro current same
    rcases (@publishChannels_spec current db current.channelList).identity with
      ⟨bind, connect, keys, equal⟩
    simp only [equal]
    exact same

theorem channelKey_inj {first second : Text} :
    config.channelKey first = config.channelKey second ↔ first = second := by
  simp [channelKey, key]

/-- When nothing was registered before, `Initialize` has registered the keys of the hashes of
all bind channels exactly if it has found peers for them. -/
theorem registered_initializeTopology_iff (db : Db) (nothing : config.fRegisteredKeys = []) :
    (∀ name ∈ (config.initializeTopology db).1.fBindChannels.keys,
        config.channelKey name ∈ (config.initializeTopology db).1.fRegisteredKeys) ↔
      config.PeersFound db := by
  rw [initializeTopology_fRegisteredKeys, nothing, List.nil_append]
  apply forall₂_congr
  intro name _
  rw [List.mem_flatMap]
  apply exists_congr
  intro record
  apply and_congr_right
  intro member
  rw [← peers_ne_nil_iff, ← peers_of_mem_initializeTopology member, channelKeys]
  by_cases none : record.peers = []
  · simp [none]
  · simp [none, channelKey_inj]

/-- The key of a channel is no key of a sub-socket. -/
theorem channelKey_notMem_addressKeys (name : Text) (properties : Properties)
    (channels : MQChannel) : config.channelKey name ∉ config.addressKeys properties channels := by
  intro member
  simp only [addressKeys, List.mem_flatMap, List.mem_map] at member
  rcases member with ⟨channel, _, index, _, equal⟩
  simp only [socketKey, channelKey, key, Text.join_cons_cons, List.append_assoc,
    List.append_cancel_left_eq] at equal
  exact absurd (List.cons.inj equal).1 (by decide)

end TopologyConfig

namespace Instance

variable {V : Type} {transport : Transport V} {options : ProgramOptions} {inst : Instance V}

/-- Every key that the instance has written and not deleted is registered and
expires, and none is left in the state `Idle`. -/
structure KeysRegistered (inst : Instance V) : Prop where
  registered : ∀ key ∈ inst.written, key ∈ inst.config.fRegisteredKeys
  expiring : ∀ key ∈ inst.written, key ∈ inst.expiring
  cleared : inst.position = .idle → inst.written = []

/-- When the bind channels are marked, the keys of their hashes are registered. -/
def MarksRegistered (inst : Instance V) : Operation → Prop
  | .writeBindAddress _ => ∀ name ∈ inst.config.fBindChannels.keys,
      inst.config.channelKey name ∈ inst.config.fRegisteredKeys
  | _ => True

/-- Whenever the bind channels are marked, the `Initialize` before has found peers for them. -/
def PeersFound (transport : Transport V) (options : ProgramOptions) (inst : Instance V)
    (operations : List Operation) : Prop :=
  ∀ before db properties after,
    operations = before ++ .initializeTopology db :: .writeBindAddress properties :: after →
      ∀ current, run (step transport options) inst before = some current →
        current.config.PeersFound db

/-- An instance that has done nothing. -/
structure New (inst : Instance V) : Prop where
  written : inst.written = []
  registered : inst.config.fRegisteredKeys = []
  position : inst.position = .idle

/-- The written keys are registered, and the registered ones expire. -/
structure Tracks (inst : Instance V) : Prop where
  registered : ∀ key ∈ inst.written, key ∈ inst.config.fRegisteredKeys
  expiring : ∀ key ∈ inst.config.fRegisteredKeys, key ∈ inst.expiring
  cleared : inst.position = .idle → inst.written = []

theorem Tracks.keysRegistered (tracks : Tracks inst) : KeysRegistered inst :=
  ⟨tracks.registered, fun key member => tracks.expiring key (tracks.registered key member),
    tracks.cleared⟩

/-- An operation that registers what it creates, and lets expire what it registers. -/
theorem Tracks.extend {next : Instance V} {created registered expired : List Text}
    (tracks : Tracks inst) (writtenEq : next.written = inst.written ++ created)
    (registeredEq : next.config.fRegisteredKeys = inst.config.fRegisteredKeys ++ registered)
    (expiringEq : next.expiring = inst.expiring ++ expired)
    (creates : ∀ key ∈ created, key ∈ inst.config.fRegisteredKeys ++ registered)
    (expires : ∀ key ∈ registered, key ∈ expired) (busy : next.position ≠ .idle) :
    Tracks next := by
  constructor
  · intro key member
    rw [writtenEq, List.mem_append] at member
    rw [registeredEq]
    rcases member with old | new
    · exact List.mem_append_left _ (tracks.registered key old)
    · exact creates key new
  · intro key member
    rw [registeredEq, List.mem_append] at member
    rw [expiringEq, List.mem_append]
    rcases member with old | new
    · exact Or.inl (tracks.expiring key old)
    · exact Or.inr (expires key new)
  · exact fun idle => absurd idle busy

/-- What `Initialize` does to the keys. -/
theorem initializeTopology_keys (inst : Instance V) (db : Db) : ∃ keys,
    (inst.initializeTopology transport options db).written = inst.written ++ keys ∧
      (inst.initializeTopology transport options db).config.fRegisteredKeys =
        inst.config.fRegisteredKeys ++ keys ∧
      (inst.initializeTopology transport options db).expiring = inst.expiring ++ keys := by
  have registered := inst.config.initializeTopology_fRegisteredKeys db
  have created (configured : List Configured) :
      createdKeys (configured.flatMap fun record =>
        inst.config.writeChannel record.sp record.peers) =
        configured.flatMap fun record => inst.config.channelKeys record.sp record.peers := by
    simp only [createdKeys_flatMap, createdKeys_writeChannel]
  have expired (configured : List Configured) :
      expiredKeys (configured.flatMap fun record =>
        inst.config.writeChannel record.sp record.peers) =
        configured.flatMap fun record => inst.config.channelKeys record.sp record.peers := by
    simp only [expiredKeys_flatMap, expiredKeys_writeChannel]
  unfold initializeTopology
  simp only
  rcases result : inst.config.initializeTopology db with ⟨config, _ | configured⟩
  · rw [result] at registered
    exact ⟨[], by simp, registered, by simp⟩
  · rw [result] at registered
    apply Exists.intro (configured.flatMap fun record =>
      inst.config.channelKeys record.sp record.peers)
    simp only
    split
    · exact ⟨congrArg _ (created configured), registered, congrArg _ (expired configured)⟩
    · exact ⟨congrArg _ (created configured), registered, congrArg _ (expired configured)⟩

/-- Connecting writes no keys. -/
theorem connect_keys (inst : Instance V) (db : Db) (views : Nat → View) :
    (inst.connect transport db views).written = inst.written ∧
      (inst.connect transport db views).config.fRegisteredKeys = inst.config.fRegisteredKeys ∧
      (inst.connect transport db views).expiring = inst.expiring := by
  rcases inst.connect_eq transport db views with ⟨channels, custom, properties, equal⟩
  rw [equal]
  exact ⟨rfl, rfl, rfl⟩

/-- One operation that marks registered keys only. -/
theorem Tracks.step {next : Instance V} {operation : Operation} (tracks : Tracks inst)
    (marks : MarksRegistered inst operation)
    (stepped : inst.step transport options operation = some next) : Tracks next := by
  unfold Instance.step at stepped
  split at stepped
  · rename_i db _
    cases stepped
    rcases @initializeTopology_keys V transport options inst db with
      ⟨keys, written, registered, expiring⟩
    apply @Tracks.extend V inst _ keys keys keys tracks
    · exact written
    · exact registered
    · exact expiring
    · exact fun key new => List.mem_append_right _ new
    · exact fun key new => new
    · nofun
  · rename_i properties _
    cases stepped
    apply tracks.extend rfl rfl rfl
    · intro key new
      rcases (inst.config.createdKeys_writeAddress _ _ _ key).mp new with
        address | ⟨name, bound, mark⟩
      · exact List.mem_append_right _ address
      · rw [List.mem_singleton.mp mark]
        exact List.mem_append_left _ (marks name (AList.mem_keys.mp bound))
    · exact fun key new => inst.config.mem_expiredKeys_writeAddress new
    · nofun
  · rename_i db views _
    cases stepped
    rcases @connect_keys V transport inst db views with ⟨written, registered, expiring⟩
    apply @Tracks.extend V inst _ [] [] [] tracks
    · simp [written]
    · simp [registered]
    · simp [expiring]
    · nofun
    · nofun
    · nofun
  · rename_i properties _
    cases stepped
    apply tracks.extend rfl rfl rfl
    · intro key new
      rcases (inst.config.createdKeys_writeAddress _ _ _ key).mp new with address | ⟨_, _, nothing⟩
      · exact List.mem_append_right _ address
      · nomatch nothing
    · exact fun key new => inst.config.mem_expiredKeys_writeAddress new
    · nofun
  · cases stepped
  · cases stepped
    have nothing : inst.written.filter (· ∉ inst.config.fRegisteredKeys) = [] := by
      rw [List.filter_eq_nil_iff]
      intro key member
      simpa using tracks.registered key member
    constructor
    · intro key member
      rw [show ∀ db, (inst.reset db).written = inst.written.filter
        (· ∉ inst.config.fRegisteredKeys) from fun _ => rfl, nothing] at member
      nomatch member
    · nofun
    · exact fun _ => nothing
  · cases stepped

/-- A mark of an unregistered key is left in the registry. -/
theorem marksRegistered_of_step {next : Instance V} {operation : Operation}
    (stepped : inst.step transport options operation = some next)
    (keys : KeysRegistered next) : MarksRegistered inst operation := by
  unfold Instance.step at stepped
  split at stepped
  · trivial
  · rename_i properties _
    cases stepped
    intro name bound
    have created : inst.config.channelKey name ∈
        createdKeys (inst.config.writeBindAddress properties) :=
      (inst.config.createdKeys_writeAddress _ _ _ _).mpr
        (Or.inr ⟨name, AList.mem_keys.mpr bound, List.mem_singleton_self _⟩)
    have registered := keys.registered _ (List.mem_append_right _ created)
    rcases List.mem_append.mp registered with before | address
    · exact before
    · exact absurd address (inst.config.channelKey_notMem_addressKeys _ _ _)
  · trivial
  · trivial
  · cases stepped
  · trivial
  · cases stepped

/-- `Idle` is reached by `Reset` only, which leaves no registered keys. -/
theorem registered_of_step_idle {next : Instance V} {operation : Operation}
    (stepped : inst.step transport options operation = some next) (idle : next.position = .idle) :
    next.config.fRegisteredKeys = [] := by
  unfold Instance.step at stepped
  split at stepped <;> cases stepped <;> first | rfl | cases idle

/-- `WriteBindAddress` follows `Initialize`. -/
theorem position_of_writeBindAddress {next : Instance V} {properties : Properties}
    (stepped : inst.step transport options (.writeBindAddress properties) = some next) :
    inst.position = .initialized := by
  cases place : inst.position <;> simp [Instance.step, place] at stepped ⊢

theorem initializeTopology_of_step {next : Instance V} {operation : Operation}
    (stepped : inst.step transport options operation = some next)
    (initialized : next.position = .initialized) :
    ∃ db, operation = .initializeTopology db ∧ inst.position = .idle := by
  unfold Instance.step at stepped
  split at stepped
  · rename_i db isIdle
    exact ⟨db, rfl, isIdle⟩
  all_goals cases stepped <;> cases initialized

/-- What `Initialize` does to the members of the topology. -/
theorem config_of_step_initializeTopology {next : Instance V} {db : Db}
    (stepped : inst.step transport options (.initializeTopology db) = some next) :
    inst.position = .idle ∧ next.config = (inst.config.initializeTopology db).1 := by
  cases place : inst.position with
  | idle =>
      simp only [Instance.step, place] at stepped
      cases stepped
      refine ⟨rfl, ?_⟩
      unfold initializeTopology
      rcases inst.config.initializeTopology db with ⟨config, _ | configured⟩
      · rfl
      · simp only
        split <;> rfl
  | initialized => simp [Instance.step, place] at stepped
  | bindWritten => simp [Instance.step, place] at stepped
  | connected => simp [Instance.step, place] at stepped
  | connectWritten => simp [Instance.step, place] at stepped

/-- The marks behind an `Initialize` are registered exactly if it has found the peers. -/
theorem marksRegistered_iff {next : Instance V} {db : Db} {properties : Properties}
    (stepped : inst.step transport options (.initializeTopology db) = some next)
    (nothing : inst.position = .idle → inst.config.fRegisteredKeys = []) :
    MarksRegistered next (.writeBindAddress properties) ↔ inst.config.PeersFound db := by
  rcases config_of_step_initializeTopology stepped with ⟨idle, isConfig⟩
  rw [MarksRegistered, isConfig, inst.config.initializeTopology_channelKey]
  exact inst.config.registered_initializeTopology_iff db (nothing idle)

/-- A run marks registered keys only exactly if each `Initialize` has found the peers of the
bind channels that are marked behind it. -/
theorem meets_marksRegistered_iff (new : New inst) {operations : List Operation}
    (inOrder : (run (step transport options) inst operations).isSome) :
    Meets (step transport options) MarksRegistered inst operations ↔
      PeersFound transport options inst operations := by
  have clear {before : List Operation} {current : Instance V}
      (reached : run (step transport options) inst before = some current) :
      current.position = .idle → current.config.fRegisteredKeys = [] :=
    run_invariant (fun _ _ stepped => registered_of_step_idle stepped) (fun _ => new.registered)
      (meets_of_forall (fun _ _ => True.intro) inst before) reached
  -- a prefix of the run leads somewhere
  have reaches {before after : List Operation} (split : operations = before ++ after) :
      ∃ current, run (step transport options) inst before = some current ∧
        (run (step transport options) current after).isSome := by
    rw [split, run_append] at inOrder
    rcases Option.isSome_iff_exists.mp inOrder with ⟨last, reached⟩
    rcases Option.bind_eq_some_iff.mp reached with ⟨current, first, second⟩
    exact ⟨current, first, Option.isSome_of_eq_some second⟩
  rw [meets_iff_forall_split]
  constructor
  · intro marks before db properties after split current reached
    rcases reaches split with ⟨other, same, goesOn⟩
    cases reached.symm.trans same
    rcases Option.isSome_iff_exists.mp goesOn with ⟨last, ran⟩
    rcases (run_cons_eq_some_iff _ _ _ _ _).mp ran with ⟨next, stepped, -⟩
    rw [← marksRegistered_iff stepped (clear reached)]
    apply marks (before ++ [.initializeTopology db]) (.writeBindAddress properties) after
    · rw [split, List.append_assoc, List.singleton_append]
    · rw [run_append, reached, Option.bind_some]
      exact (run_cons_eq_some_iff _ _ _ _ _).mpr ⟨next, stepped, rfl⟩
  · intro found before operation after split current reached
    cases operation with
    | writeBindAddress properties =>
        rcases reaches split with ⟨other, same, goesOn⟩
        cases reached.symm.trans same
        rcases Option.isSome_iff_exists.mp goesOn with ⟨last, ran⟩
        rcases (run_cons_eq_some_iff _ _ _ _ _).mp ran with ⟨next, stepped, -⟩
        have initialized := position_of_writeBindAddress stepped
        -- the last operation before is the `Initialize` of this cycle
        rcases List.eq_nil_or_concat before with rfl | ⟨first, operation, rfl⟩
        · cases reached
          cases new.position.symm.trans initialized
        · rw [List.concat_eq_append] at reached split
          rw [run_append] at reached
          rcases Option.bind_eq_some_iff.mp reached with ⟨middle, toMiddle, fromMiddle⟩
          rcases (run_cons_eq_some_iff _ _ _ _ _).mp fromMiddle with ⟨end', last, ends⟩
          cases ends
          rcases initializeTopology_of_step last initialized with ⟨db, rfl, -⟩
          rw [marksRegistered_iff last (clear toMiddle)]
          apply found first db properties after
          · rw [split, List.append_assoc, List.singleton_append]
          · exact toMiddle
    | initializeTopology db => trivial
    | connect db views => trivial
    | writeConnectAddress properties => trivial
    | reset db => trivial

/-- Every run of a new instance, in the order of the state machine: it leaves no key exactly
when each `Initialize` has found the peers of the bind channels that are marked behind it. -/
theorem keysRegistered_iff {V : Type} {transport : Transport V} {options : ProgramOptions}
    {inst : Instance V} (new : New inst) {operations : List Operation}
    (inOrder : (run (step transport options) inst operations).isSome) :
    Always (step transport options) KeysRegistered inst operations ↔
      PeersFound transport options inst operations := by
  have initial : Tracks inst := by
    constructor
    · rw [new.written]
      nofun
    · rw [new.registered]
      nofun
    · exact fun _ => new.written
  rw [← meets_marksRegistered_iff new inOrder]
  constructor
  · intro always
    rcases Option.isSome_iff_exists.mp inOrder with ⟨last, reached⟩
    exact meets_of_always marksRegistered_of_step reached always
  · intro meets
    exact always_of_invariant (fun tracks marks stepped => tracks.step marks stepped)
      Tracks.keysRegistered initial meets

/-- A new sink. -/
def newSink : Instance Text where
  config := sink
  properties := ∅

/-- A registry with the sink's endpoint and no link. -/
def unlinkedRegistry : Db :=
  hset ∅ "daq_service:topology:endpoint:Sink:in".toList [(Field.text .method, "bind".toList)]

/-- One cycle of the sink. -/
def sinkCycle (db : Db) : List Operation :=
  [.initializeTopology db, .writeBindAddress sinkProperties, .connect db fun _ => ⟨db, false⟩,
    .writeConnectAddress sinkProperties, .reset db]

/-- Without a peer, the mark of the sink's channel is left in the registry. -/
theorem unlinkedSink_leaks :
    ¬ Always (step lineTransport (lineOptions [])) KeysRegistered newSink
      (sinkCycle unlinkedRegistry) := by
  intro always
  have left : (run (step lineTransport (lineOptions [])) newSink
      (sinkCycle unlinkedRegistry)).map (fun inst => (inst.position, inst.written)) =
      some (.idle, [instanceChannelKey "Sink".toList "Sink-0".toList "in".toList]) := by
    decide +kernel
  rcases Option.map_eq_some_iff.mp left with ⟨last, reached, equal⟩
  have keys := (always_iff_forall_reached _ _ _ _).mp always _ List.prefix_rfl last reached
  have nothing := keys.cleared (congrArg Prod.fst equal)
  rw [show last.written = _ from congrArg Prod.snd equal] at nothing
  nomatch nothing

theorem newSink_new : New newSink :=
  ⟨rfl, rfl, rfl⟩

/-- With a peer, nothing is left. -/
theorem linkedSink_keysRegistered :
    Always (step lineTransport (lineOptions [])) KeysRegistered newSink
      (sinkCycle (sinkRegistry false)) := by
  refine (keysRegistered_iff newSink_new (by decide +kernel)).mpr ?_
  intro before db properties after split current reached
  -- the only `Initialize` is the first operation
  cases before with
  | nil =>
      cases reached
      rw [sinkCycle, List.nil_append, List.cons.injEq, Operation.initializeTopology.injEq] at split
      rw [← split.1]
      decide +kernel
  | cons head before =>
      have inRest : Operation.initializeTopology db ∈ (sinkCycle (sinkRegistry false)).tail := by
        rw [split]
        simp
      simp [sinkCycle] at inRest

end Instance

end NestDaq.Topology
