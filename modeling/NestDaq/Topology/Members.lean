import NestDaq.Topology.Answers
import NestDaq.Topology.Restart
import NestDaq.Topology.Wiring

/-!
# Instances that come and go

Any number of instances on one registry, each of which starts, goes through its cycles
and leaves when it likes, and may start again. An instance is found by the others from
`SetId` on and its host from `Register` on; it goes with `Reset` and `Unregister`. A
resolution that takes an address that is not there kills its process. It depends on the
order in which all of this happens whether any does.
-/

namespace NestDaq.Topology

open NestDaq.Registry
open NestDaq.Store
open NestDaq.Transition
open Instance
open TopologyConfig

variable {ι : Type} {links : List LinkKey} {instances : ι → TopologyConfig} {full later : Db}
  {config : TopologyConfig}

/-! ## One instance -/

/-- Where an instance is. `closing` is between `Reset` and `Unregister` of the destructor,
and `crashed` the end of a process by a fault. -/
inductive Stay where
  | absent
  | present
  | here
  | closing
  | crashed (fault : Fault)
  deriving DecidableEq

/-- The process has its topology, or had it when it was killed. -/
def Stay.Runs : Stay → Prop
  | here | crashed _ => True
  | _ => False

/-- An instance, in one of its cycles when it is there. -/
structure Member where
  party : Party
  stay : Stay := .absent

/-- What an instance does next. `reset` and `unregister` are those of the destructor. -/
inductive MemberAction where
  | setId (fUuid : Text)
  | register (health : List (Text × Text))
  | cycle (action : CycleAction)
  | reset
  | unregister

/-- The transport layer makes a sub-socket for each socket of a bind channel, and at least
one. -/
def MakesSockets (config : TopologyConfig) : CycleAction → Prop
  | .writeBindAddress properties => ∀ channel ∈ ordered config.fBindChannels,
      subSocketCount properties channel.2.name = max 1 channel.2.numSockets.toNat
  | _ => True

instance (config : TopologyConfig) : ∀ action, Decidable (MakesSockets config action)
  | .writeBindAddress _ => inferInstanceAs (Decidable (∀ channel ∈ ordered config.fBindChannels, _))
  | .initializeTopology | .waitBindAddress | .resolveConnectAddress | .writeConnectAddress _
  | .reset => .isTrue trivial

namespace Member

variable (db : Db) (member : Member)

/-- The fault that ends the process. -/
def fault (action : CycleAction) : Option Fault :=
  match action, member.party.phase, member.party.config.resolveConnectAddress db with
  | .resolveConnectAddress, .waited, .error fault => some fault
  | _, _, _ => none

/-- A step of a cycle, or the end of the process. -/
def cycle (action : CycleAction) : Option (Db × Member) :=
  match Party.step (db, member.party) action with
  | some (db, party) => some (db, { member with party := party })
  | none => (member.fault db action).map fun fault => (db, { member with stay := .crashed fault })

/-- One step of an instance. -/
def step : LocalStep Db Member MemberAction
  | (db, member), action =>
      let config := member.party.config
      match action, member.stay with
      | .setId fUuid, .absent =>
          some (set db (presenceKey config.fServiceName config.fId) fUuid,
            { member with stay := .present })
      | .register health, .present =>
          if "hostIp".toList ∈ health.map Prod.fst then
            some (hset db (healthKey config.fServiceName config.fId) health,
              { member with stay := .here })
          else none
      | .cycle action, .here =>
          if MakesSockets config action then member.cycle db action else none
      | .reset, .here =>
          some ((member.party.reset db).1, ⟨(member.party.reset db).2, .closing⟩)
      | .unregister, .closing =>
          some (del db [presenceKey config.fServiceName config.fId,
            healthKey config.fServiceName config.fId], ⟨{ config := config.renew }, .absent⟩)
      | _, _ => none

/-- What one step of an instance does. -/
inductive Moves (db : Db) (member : Member) : MemberAction → Db × Member → Prop where
  | setId (absent : member.stay = .absent) (fUuid : Text) :
      Moves db member (.setId fUuid)
        (set db (presenceKey member.party.config.fServiceName member.party.config.fId) fUuid,
          { member with stay := .present })
  | register (present : member.stay = .present) (health : List (Text × Text))
      (hostIp : "hostIp".toList ∈ health.map Prod.fst) :
      Moves db member (.register health)
        (hset db (healthKey member.party.config.fServiceName member.party.config.fId) health,
          { member with stay := .here })
  | cycle (here : member.stay = .here) {action : CycleAction} {result : Db × Party}
      (makes : MakesSockets member.party.config action)
      (acts : member.party.Acts db action result) :
      Moves db member (.cycle action) (result.1, { member with party := result.2 })
  | crash (here : member.stay = .here) (waited : member.party.phase = .waited) {fault : Fault}
      (failed : member.party.config.resolveConnectAddress db = .error fault) :
      Moves db member (.cycle .resolveConnectAddress) (db, { member with stay := .crashed fault })
  | reset (here : member.stay = .here) :
      Moves db member .reset ((member.party.reset db).1, ⟨(member.party.reset db).2, .closing⟩)
  | unregister (closing : member.stay = .closing) :
      Moves db member .unregister
        (del db [presenceKey member.party.config.fServiceName member.party.config.fId,
            healthKey member.party.config.fServiceName member.party.config.fId],
          ⟨{ config := member.party.config.renew }, .absent⟩)

variable {db member} {result : Db × Member}

theorem fault_eq_some_iff {action : CycleAction} {fault : Fault} :
    member.fault db action = some fault ↔ action = .resolveConnectAddress ∧
      member.party.phase = .waited ∧
      member.party.config.resolveConnectAddress db = .error fault := by
  unfold Member.fault
  split
  · rename_i waited failed
    rw [waited, failed]
    simp
  · rename_i other
    constructor
    · intro none
      cases none
    · rintro ⟨resolves, waited, failed⟩
      exact (other fault resolves waited failed).elim

theorem moves_of_step {action : MemberAction} (stepped : step (db, member) action = some result) :
    Moves db member action result := by
  simp only [step] at stepped
  split at stepped
  · rename_i fUuid absent
    cases stepped
    exact .setId absent fUuid
  · rename_i health present
    split at stepped
    · rename_i hostIp
      cases stepped
      exact .register present health hostIp
    · cases stepped
  · rename_i action here
    split at stepped
    · rename_i makes
      unfold Member.cycle at stepped
      split at stepped
      · rename_i acted
        cases stepped
        exact .cycle here makes (Party.acts_of_step acted)
      · rcases Option.map_eq_some_iff.mp stepped with ⟨fault, isFault, rfl⟩
        rcases fault_eq_some_iff.mp isFault with ⟨rfl, waited, failed⟩
        exact .crash here waited failed
    · cases stepped
  · rename_i here
    cases stepped
    exact .reset here
  · rename_i closing
    cases stepped
    exact .unregister closing
  · cases stepped

/-- What `ResolveConnectAddress` makes of an instance that has waited. -/
theorem step_resolveConnectAddress (here : member.stay = .here)
    (waited : member.party.phase = .waited) :
    step (db, member) (.cycle .resolveConnectAddress) =
      match member.party.config.resolveConnectAddress db with
      | .ok resolved => some (db, { member with
          party := { member.party with phase := .resolved, resolved := resolved } })
      | .error .number =>
          some (db, { member with party := { member.party with phase := .deviceReady } })
      | .error fault => some (db, { member with stay := .crashed fault }) := by
  simp only [step, here, MakesSockets, if_true, Member.cycle, Member.fault, Party.step, waited]
  cases member.party.config.resolveConnectAddress db with
  | ok resolved => rfl
  | error fault => cases fault <;> rfl

end Member

/-! ## What an instance shows to the others -/

/-- The list of the peers of a channel. -/
def peerList (later : Db) (config : TopologyConfig) (channel : Text) : List Text :=
  lrange later (instancePeerKey config.fServiceName config.fId channel)

/-- A channel of an instance at the far end of a link of the channel. -/
def PeerOf (links : List LinkKey) (instances : ι → TopologyConfig) (service channel peer : Text) :
    Prop :=
  ∃ link ∈ links, ∃ far, link.Joins (service, channel) far ∧
    ∃ j, (instances j).fServiceName = far.1 ∧
      peer = instanceChannelKey far.1 (instances j).fId far.2

/-- A channel with its sub-sockets, one for each of its peers and at least one, all with
their addresses. -/
structure Published (later : Db) (config : TopologyConfig) (channel : Text) : Prop where
  keys : ∀ key, key ∈ later ∧ socketKeyPrefix config.fServiceName config.fId channel <+: key ↔
    ∃ index < max 1 (peerList later config channel).length,
      key = instanceSocketKey config.fServiceName config.fId channel index
  address : ∀ key ∈ later, socketKeyPrefix config.fServiceName config.fId channel <+: key →
    (hget later key (Field.text .address)).isSome

/-- What the registry holds of the channels of an instance: the peers found by
`Initialize` and a hash that counts them, and the sub-sockets since `WriteBindAddress`. -/
structure Presents (links : List LinkKey) (instances : ι → TopologyConfig) (full : Db)
    (config : TopologyConfig) (later : Db) (party : Party) : Prop where
  peers : ∀ channel, ChannelName channel → ∀ peer ∈ peerList later config channel,
    PeerOf links instances config.fServiceName channel peer
  hash : ∀ channel, ChannelName channel → ∃ sp : SocketProperty,
    sp.numSockets = (peerList later config channel).length ∧
      HashOf later (instanceChannelKey config.fServiceName config.fId channel) sp
  paired : ∀ channel, ChannelName channel →
    instancePeerKey config.fServiceName config.fId channel ∈ later →
      instanceChannelKey config.fServiceName config.fId channel ∈ party.config.fRegisteredKeys
  counted : ∀ channel sp, party.config.fBindChannels.lookup channel = some sp ∨
    party.config.fConnectChannels.lookup channel = some sp →
      Linked links config.fServiceName channel →
        sp.numSockets = (peerList later config channel).length
  unaddressed : ∀ channel sp, party.config.fConnectChannels.lookup channel = some sp →
    Linked links config.fServiceName channel → hasAddress sp = false
  complete : party.phase ≠ .idle → ∀ channel base,
    DeclaresEndpoint full config.fServiceName channel base → base.method = "bind".toList →
      channel ∈ party.config.fBindChannels
  unpublished : party.phase.written = false → ∀ key ∈ later,
    ¬ area config.fServiceName config.fId socketPrefix <+: key
  published : party.phase.written = true → ∀ channel ∈ party.config.fBindChannels,
    Linked links config.fServiceName channel → Published later config channel

section Congr

variable {db : Db} {party : Party}

theorem peerList_congr
    (same : ∀ key, OwnArea config key → later.lookup key = db.lookup key) (channel : Text) :
    peerList later config channel = peerList db config channel :=
  lrange_congr (same _ (Or.inl (area_prefix_instancePeerKey _ _ _)))

theorem Published.congr {channel : Text} (published : Published db config channel)
    (sameList : peerList later config channel = peerList db config channel)
    (same : ∀ key, socketKeyPrefix config.fServiceName config.fId channel <+: key →
      later.lookup key = db.lookup key) : Published later config channel := by
  constructor
  · intro key
    rw [sameList, ← published.keys key]
    apply and_congr_left
    intro isPrefix
    exact mem_of_lookup_eq (same key isPrefix)
  · intro key member isPrefix
    rw [hget_congr (same key isPrefix)]
    exact published.address key ((mem_of_lookup_eq (same key isPrefix)).mp member) isPrefix

/-- What others write does not matter. -/
theorem Presents.congr (presents : Presents links instances full config db party)
    (same : ∀ key, OwnArea config key → later.lookup key = db.lookup key) :
    Presents links instances full config later party := by
  have lists := peerList_congr same
  constructor
  · intro channel name peer member
    rw [lists] at member
    exact presents.peers channel name peer member
  · intro channel name
    rcases presents.hash channel name with ⟨sp, counted, hash⟩
    rw [lists]
    exact ⟨sp, counted, hash.congr (same _ (Or.inl (area_prefix_instanceChannelKey _ _ _)))⟩
  · intro channel name member
    apply presents.paired channel name
    exact (mem_of_lookup_eq (same _ (Or.inl (area_prefix_instancePeerKey _ _ _)))).mp member
  · intro channel sp found linked
    rw [lists]
    exact presents.counted channel sp found linked
  · exact presents.unaddressed
  · exact presents.complete
  · intro early key member inSockets
    exact presents.unpublished early key
      ((mem_of_lookup_eq (same key (Or.inr inSockets))).mp member) inSockets
  · intro written channel known linked
    apply (presents.published written channel known linked).congr (lists channel)
    intro key isPrefix
    exact same key (Or.inr (socketKeyPrefix_area.trans isPrefix))

theorem Phase.ne_idle_of_written {phase : Phase} (written : phase.written = true) :
    phase ≠ .idle := by
  rintro rfl
  cases written

/-- A step that changes the phase only. -/
theorem Presents.proceed (presents : Presents links instances full config later party)
    {next : Party} (sameConfig : next.config = party.config)
    (before : party.phase.written = true) (written : next.phase.written = true) :
    Presents links instances full config later next := by
  constructor
  · exact presents.peers
  · exact presents.hash
  · rw [sameConfig]
    exact presents.paired
  · rw [sameConfig]
    exact presents.counted
  · rw [sameConfig]
    exact presents.unaddressed
  · rw [sameConfig]
    exact fun _ => presents.complete (Phase.ne_idle_of_written before)
  · intro early
    rw [written] at early
    cases early
  · rw [sameConfig]
    exact fun _ => presents.published before

end Congr

/-- The registry while instances come and go: it has the declared topology, and the
presences in it are those of instances. -/
structure Surrounds (links : List LinkKey) (full later : Db) : Prop where
  sameTopology : SameTopology full later
  present : ∀ service, IsEnd links service → ∀ instanceId,
    presenceKey service instanceId ∈ later → presenceKey service instanceId ∈ full

/-- The key of a command of a pipeline is there after it. -/
theorem mem_execAll_of_hset (db : Db) {commands : List Command} {key : Text}
    {fields : List (Text × Text)} (member : Command.hset key fields ∈ commands) :
    key ∈ execAll db commands := by
  rcases List.append_of_mem member with ⟨before, after, rfl⟩
  have created : key ∈ hset (execAll db before) key fields := by
    rw [hset, AList.mem_insert]
    exact Or.inl rfl
  rw [execAll_append]
  exact mem_execAll (hset (execAll db before) key fields) after created

/-- The keys that `WriteChannel` registers for channels with peers. -/
theorem mem_channelKeys (standard : config.Standard) {records : List Configured} {key : Text} :
    key ∈ (records.flatMap fun record => config.channelKeys record.sp record.peers) ↔
      ∃ record ∈ records, record.peers ≠ [] ∧
        (key = instanceChannelKey config.fServiceName config.fId record.sp.name ∨
          key = instancePeerKey config.fServiceName config.fId record.sp.name) := by
  rw [List.mem_flatMap]
  apply exists_congr
  intro record
  apply and_congr_right
  intro _
  rw [channelKeys]
  split
  · rename_i none
    simp [none]
  · rename_i some
    rw [channelKey_eq standard, peerListKey_instanceChannelKey standard]
    simp [some]

/-- What a registry has of a channel after `Initialize`: the list and the hash of the
channel when it has peers, and otherwise what it had before. -/
inductive Entered (config : TopologyConfig) (records : List Configured) (before after : Db)
    (channel : Text) : Prop where
  | entered (record : Configured) (inRecords : record ∈ records)
      (sameName : record.sp.name = channel) (some : record.peers ≠ [])
      (listed : peerList after config channel = record.peers)
      (texts : ∀ field, hget after (instanceChannelKey config.fServiceName config.fId channel)
        (Field.text field) = .some (fieldText record.sp field))
  | kept (hash : after.lookup (instanceChannelKey config.fServiceName config.fId channel) =
        before.lookup (instanceChannelKey config.fServiceName config.fId channel))
      (list : after.lookup (instancePeerKey config.fServiceName config.fId channel) =
        before.lookup (instancePeerKey config.fServiceName config.fId channel))

theorem entered_writeChannels (standard : config.Standard) {records : List Configured}
    (distinct : (records.map (·.sp.name)).Nodup) (parts : ∀ record ∈ records, Part record.sp.name)
    (unlisted : ∀ channel, instancePeerKey config.fServiceName config.fId channel ∉ later)
    {channel : Text} (part : Part channel) :
    Entered config records later
      (execAll later (records.flatMap fun record => config.writeChannel record.sp record.peers))
      channel := by
  by_cases has : ∃ record ∈ records, record.sp.name = channel ∧ record.peers ≠ []
  · rcases has with ⟨record, inRecords, rfl, some⟩
    rcases lookup_writeChannels standard distinct parts inRecords (unlisted _) with
      ⟨listed, texts⟩
    exact .entered record inRecords rfl some listed (texts some)
  · have created := createdKeys_configured config records
    apply Entered.kept
    all_goals
      apply lookup_execAll_of_notMem_createdKeys
      rw [created, mem_channelKeys standard]
      rintro ⟨record, inRecords, some, equal | equal⟩
    · exact has ⟨record, inRecords, (instanceChannelKey_right_injective _ _ equal).symm, some⟩
    · exact instancePeerKey_ne_instanceChannelKey part _ _ _ equal.symm
    · exact instancePeerKey_ne_instanceChannelKey (parts record inRecords) _ _ _ equal
    · exact has ⟨record, inRecords, (instancePeerKey_right_injective _ _ equal).symm, some⟩

/-! ## What a step of its own changes -/

namespace Ready

variable (ready : Ready links instances full) {i : ι} {party : Party}

include ready

section Initialize

variable {known : Links} {current : TopologyConfig}
  {result : TopologyConfig × Db × List Configured}
  (initializes : Initializes links full later (instances i) known current result)

include initializes

/-- The peers that `Initialize` finds are the present instances at the far ends. -/
theorem mem_record_peers {record : Configured} (inRecords : record ∈ result.2.2) {peer : Text} :
    peer ∈ record.peers ↔ ∃ link ∈ links, ∃ far,
      link.Joins ((instances i).fServiceName, record.sp.name) far ∧
        ∃ instanceId, presenceKey far.1 instanceId ∈ later ∧
          peer = instanceChannelKey far.1 instanceId far.2 := by
  have standard := ready.standard i
  have collected := initializes.collected
  have currentStandard : current.Standard := by
    rcases collected.identity with ⟨bind, connect, fLinks, rfl⟩
    exact ⟨standard.top, standard.separator⟩
  have recorded := collected.recorded
  have complete := collected.known
  rcases collected.origin initializes.published inRecords with ⟨-, -, -, -, -, peersEq⟩
  have present (service instanceId : Text) :
      presenceKey service instanceId ∈ record.registry ↔
        presenceKey service instanceId ∈ later := by
    apply mem_of_lookup_eq
    apply initializes.published.kept record inRecords
    intro published
    exact not_region_presenceKey _ _ (ready.writes_publishedKeys collected published).1
  rw [← collected.sameService] at recorded complete
  rw [peersEq, mem_peers currentStandard ready.declares.wellFormed recorded complete,
    collected.sameService]
  simp only [present]
  constructor
  · rintro ⟨link, inLinks, far, reaches, found⟩
    exact ⟨link, inLinks, far,
      reaches.resolve_right ((ready.separate i).not_stray inLinks), found⟩
  · rintro ⟨link, inLinks, far, joins, found⟩
    exact ⟨link, inLinks, far, Or.inl joins, found⟩

/-- What `Initialize` makes of a channel. -/
theorem record_spec (surrounds : Surrounds links full later) {record : Configured}
    (inRecords : record ∈ result.2.2) :
    ChannelName record.sp.name ∧
      (∀ peer ∈ record.peers,
        PeerOf links instances (instances i).fServiceName record.sp.name peer) ∧
      ∃ base, DeclaresEndpoint full (instances i).fServiceName record.sp.name base ∧
        record.sp.method = base.method ∧ record.sp.bound = base.bound ∧
        (base.autoSubChannel = true →
          record.sp.numSockets = base.numSockets + record.peers.length) ∧
        (base.method ≠ "bind".toList → record.sp.address = base.address) := by
  have standard := ready.standard i
  have separate := ready.separate i
  have collected := initializes.collected
  have currentStandard : current.Standard := by
    rcases collected.identity with ⟨bind, connect, fLinks, rfl⟩
    exact ⟨standard.top, standard.separator⟩
  have recorded := collected.recorded
  rcases collected.origin initializes.published inRecords with
    ⟨sp, -, fromEndpoint, method, spEq, peersEq⟩
  have sameName := fromEndpoint.sameName
  have stored := fromEndpoint.endpoint
  rcases fromEndpoint.read with ⟨base, read, baseEq⟩
  rw [endpointKey_eq standard] at stored read
  refine ⟨ready.channelName i stored, ?_, base, ⟨stored, read⟩, ?_, ?_, ?_, ?_⟩
  · intro peer member
    rcases (ready.mem_record_peers initializes inRecords).mp member with
      ⟨link, inLinks, far, joins, instanceId, present, rfl⟩
    have isEnd : IsEnd links far.1 := by
      rcases joins with ⟨-, rfl⟩ | ⟨-, rfl⟩
      · exact ⟨link, inLinks, Or.inr rfl⟩
      · exact ⟨link, inLinks, Or.inl rfl⟩
    rcases (ready.present _ isEnd _).mp (surrounds.present _ isEnd _ present) with
      ⟨j, service, rfl⟩
    exact ⟨link, inLinks, far, joins, j, service, rfl⟩
  · rw [method, baseEq]
  · rw [spEq, configureChannel_bound, baseEq]
  · intro auto
    have separateCurrent := separate
    rw [← collected.sameService] at separateCurrent recorded
    have length : record.peers.length =
        (current.contributedPeers record.registry sp.name).length := by
      rw [peersEq, ← sameName]
      exact length_sortUnique_of_nodup
        (separateCurrent.nodup_contributedPeers currentStandard recorded _ _)
    rw [spEq, (configureChannel_spec sp).2.2.1, length, baseEq, if_pos auto]
  · intro notBind
    rw [spEq, (configureChannel_spec sp).2.2.2, baseEq]
    rw [baseEq]
    exact notBind

omit initializes in
/-- There is no list of peers in the state `Idle`. -/
theorem unlisted_of_idle (sound : Sound links (instances i) full later party)
    (idle : party.phase = .idle) (channel : Text) :
    instancePeerKey (instances i).fServiceName (instances i).fId channel ∉ later := by
  intro stored
  have registered := sound.mem_of_peerKey stored
  rw [sound.idle idle, knowing, ready.noKeys i] at registered
  cases registered

/-- What `Initialize` enters for a channel. -/
theorem entered_initializeTopology (surrounds : Surrounds links full later)
    (sound : Sound links (instances i) full later party) (idle : party.phase = .idle)
    {channel : Text} (part : Part channel) :
    Entered (instances i) result.2.2 later (execAll later
      (result.2.2.flatMap fun record => (instances i).writeChannel record.sp record.peers))
      channel := by
  apply entered_writeChannels (ready.standard i) _ _ (ready.unlisted_of_idle sound idle) part
  · rw [initializes.published.names]
    exact nodup_channelList initializes.collected.sorted initializes.collected.fromEndpoints
  · exact fun record inRecords =>
      (ready.record_spec initializes surrounds inRecords).1.name.part

/-- It lists the peers of every channel. -/
theorem peerList_initializeTopology (surrounds : Surrounds links full later)
    (sound : Sound links (instances i) full later party) (idle : party.phase = .idle)
    {record : Configured} (inRecords : record ∈ result.2.2) :
    peerList (execAll later
        (result.2.2.flatMap fun record => (instances i).writeChannel record.sp record.peers))
      (instances i) record.sp.name = record.peers := by
  refine (lookup_writeChannels (ready.standard i) ?_ ?_ inRecords
    (ready.unlisted_of_idle sound idle _)).1
  · rw [initializes.published.names]
    exact nodup_channelList initializes.collected.sorted initializes.collected.fromEndpoints
  · exact fun record inRecords =>
      (ready.record_spec initializes surrounds inRecords).1.name.part

end Initialize

/-- `Initialize` presents the peers that it finds. -/
theorem presents_initializeTopology (endpoints : LinksEndpoints links full AutoSubChannel)
    (surrounds : Surrounds links full later)
    (sound : Sound links (instances i) full later party)
    (presents : Presents links instances full (instances i) later party)
    (idle : party.phase = .idle) :
    Presents links instances full (instances i) (party.initializeTopology later).1
      (party.initializeTopology later).2 := by
  have standard := ready.standard i
  rcases ready.exists_initializeTopology surrounds.sameTopology sound idle with
    ⟨current, result, initializes, equation⟩
  have collected := initializes.collected
  have parts : ∀ record ∈ result.2.2, Part record.sp.name := fun record inRecords =>
    (ready.record_spec initializes surrounds inRecords).1.name.part
  have registered := initializes.fRegisteredKeys_eq
  rw [ready.noKeys i, List.nil_append] at registered
  have created := createdKeys_configured (instances i) result.2.2
  have written {channel : Text} (part : Part channel) :=
    ready.entered_initializeTopology initializes surrounds sound idle part
  -- What is known of a record counts for a linked channel.
  have counts {record : Configured} (inRecords : record ∈ result.2.2)
      (linked : Linked links (instances i).fServiceName record.sp.name) :
      record.sp.numSockets = record.peers.length := by
    rcases (ready.record_spec initializes surrounds inRecords).2.2 with
      ⟨base, declares, -, -, sockets, -⟩
    have auto := endpoints.kind_of_linked linked declares
    rw [sockets auto.auto, auto.sockets, Int.zero_add]
  rw [equation]
  constructor
  · intro channel name peer member
    rcases written name.name.part with ⟨record, inRecords, rfl, -, listed, -⟩ | ⟨-, sameList⟩
    · rw [listed] at member
      exact (ready.record_spec initializes surrounds inRecords).2.1 peer member
    · rw [peerList, lrange_congr sameList] at member
      exact presents.peers channel name peer member
  · intro channel name
    rcases written name.name.part with
      ⟨record, inRecords, rfl, some, listed, texts⟩ | ⟨same, sameList⟩
    · rcases List.exists_mem_of_ne_nil _ some with ⟨peer, member⟩
      rcases (ready.record_spec initializes surrounds inRecords).2.1 peer member with
        ⟨link, inLinks, far, joins, -⟩
      refine ⟨record.sp, ?_, HashOf.of_fieldText texts⟩
      rw [listed]
      exact counts inRecords ⟨link, inLinks, far, joins⟩
    · rcases presents.hash channel name with ⟨sp, counted, hash⟩
      refine ⟨sp, ?_, hash.congr same⟩
      rw [counted, peerList, peerList, lrange_congr sameList]
  · intro channel name member
    rcases mem_or_created_of_mem_execAll later member with before | new
    · exact absurd before (ready.unlisted_of_idle sound idle channel)
    · rw [created] at new
      rw [show (_ : TopologyConfig × Db × List Configured).1.fRegisteredKeys = _ from registered]
      rcases (mem_channelKeys standard).mp new with ⟨record, inRecords, some, equal | equal⟩
      · exact absurd equal (instancePeerKey_ne_instanceChannelKey (parts record inRecords) _ _ _)
      · apply (mem_channelKeys standard).mpr
        exact ⟨record, inRecords, some, Or.inl
          (congrArg _ (instancePeerKey_right_injective _ _ equal))⟩
  · intro channel sp found linked
    rcases collected.record_of_lookup initializes.published found with
      ⟨record, inRecords, rfl, rfl⟩
    rw [counts inRecords linked,
      ready.peerList_initializeTopology initializes surrounds sound idle inRecords]
  · intro channel sp found linked
    rcases collected.record_of_lookup initializes.published (Or.inr found) with
      ⟨record, inRecords, rfl, rfl⟩
    rcases (ready.record_spec initializes surrounds inRecords).2.2 with
      ⟨base, declares, method, -, -, address⟩
    have isConnect := (collected.result_sorted initializes.published).connect _ _ found
    have notBind : base.method ≠ "bind".toList := by
      rw [← method, isConnect]
      decide
    simp [hasAddress, address notBind, (endpoints.kind_of_linked linked declares).address]
  · intro _ channel base declares isBind
    have stored := declares.stored
    have read := declares.read
    rw [← endpointKey_eq standard] at stored read
    rcases Option.isSome_iff_exists.mp (AList.lookup_isSome.mpr
      ((collected.complete channel stored base read).1 isBind)) with ⟨sp, known⟩
    rcases collected.exists_record initializes.published (collected.mem_names (Or.inl known)) with
      ⟨record, inRecords, rfl, kept⟩
    rcases collected.origin initializes.published inRecords with
      ⟨sp', -, fromEndpoint, method, -⟩
    rw [method, fromEndpoint.unique ⟨stored, base, read, rfl⟩] at kept
    rw [if_pos isBind] at kept
    exact AList.lookup_isSome.mp (kept ▸ rfl)
  · intro _ key member inSockets
    rcases mem_or_created_of_mem_execAll later member with before | new
    · exact presents.unpublished (by rw [idle]; rfl) key before inSockets
    · rw [created] at new
      rcases (mem_channelKeys standard).mp new with ⟨record, -, -, rfl | rfl⟩
      · exact not_area_socket (area_prefix_instanceChannelKey _ _ _) inSockets
      · exact not_area_socket (area_prefix_instancePeerKey _ _ _) inSockets
  · intro early
    cases early

/-- `WriteAddress` leaves the keys of the channels as they are, but for the marks. -/
theorem lookup_writeAddress (sound : Sound links (instances i) full later party)
    {properties : Properties} {channels : MQChannel} {f : Text → List Command} {key : Text}
    (inChannels : area (instances i).fServiceName (instances i).fId channelPrefix <+: key)
    (unmarked : ∀ name ∈ channels, key ∉ createdKeys (f name)) :
    (execAll later (party.config.writeAddress properties channels f)).lookup key =
      later.lookup key := by
  rcases sound.sameKeys with ⟨sameService, sameId, partyStandard⟩
  apply lookup_execAll_of_notMem_createdKeys
  intro new
  rcases (createdKeys_writeAddress party.config _ _ _ _).mp new with address | ⟨name, known, mark⟩
  · rcases exists_of_mem_addressKeys (partyStandard (ready.standard i)) address with
      ⟨channel, index, rfl⟩
    rw [sameService, sameId] at inChannels
    exact not_area_socket inChannels (area_prefix_instanceSocketKey _ _ _ _)
  · exact unmarked name known mark

/-- The lists of the peers stay, as no list is marked. -/
theorem peerList_writeAddress (sound : Sound links (instances i) full later party)
    {properties : Properties} {channels : MQChannel} {f : Text → List Command}
    (marks : ∀ name ∈ channels, ∀ key ∈ createdKeys (f name), ∃ other, ChannelName other ∧
      key = instanceChannelKey (instances i).fServiceName (instances i).fId other)
    (channel : Text) :
    peerList (execAll later (party.config.writeAddress properties channels f)) (instances i)
      channel = peerList later (instances i) channel := by
  apply lrange_congr
  apply ready.lookup_writeAddress sound (area_prefix_instancePeerKey _ _ _)
  intro name known mark
  rcases marks name known _ mark with ⟨other, isName, equal⟩
  exact instancePeerKey_ne_instanceChannelKey isName.name.part _ _ _ equal

/-- `WriteBindAddress` marks the hash of a channel. -/
theorem createdKeys_markBound (sound : Sound links (instances i) full later party) (name : Text) :
    createdKeys (party.config.markBound name) =
      [instanceChannelKey (instances i).fServiceName (instances i).fId name] := by
  rcases sound.sameKeys with ⟨sameService, sameId, standard⟩
  rw [markBound, channelKey_eq (standard (ready.standard i)), sameService, sameId]
  rfl

/-- The channels of an instance have names of channels. -/
theorem channelName_of_lookup (sound : Sound links (instances i) full later party) {name : Text}
    {sp : SocketProperty} (found : party.config.fBindChannels.lookup name = some sp ∨
      party.config.fConnectChannels.lookup name = some sp) : ChannelName name ∧ sp.name = name := by
  rcases sound.ofEndpoint name sp found with ⟨sameName, base, declares, -⟩
  exact ⟨ready.channelName i declares.stored, sameName⟩

theorem channelName_of_mem (sound : Sound links (instances i) full later party) {name : Text}
    (known : name ∈ party.config.fBindChannels) : ChannelName name := by
  rcases Option.isSome_iff_exists.mp (AList.lookup_isSome.mpr known) with ⟨sp, found⟩
  exact (ready.channelName_of_lookup sound (Or.inl found)).1

/-- `WriteBindAddress` keeps the lists of the peers. -/
theorem peerList_writeBindAddress (sound : Sound links (instances i) full later party)
    (properties : Properties) (channel : Text) :
    peerList (execAll later (party.config.writeBindAddress properties)) (instances i) channel =
      peerList later (instances i) channel := by
  apply ready.peerList_writeAddress sound
  intro name known key mark
  rw [ready.createdKeys_markBound sound] at mark
  exact ⟨name, ready.channelName_of_mem sound known, List.mem_singleton.mp mark⟩

/-- So does `WriteConnectAddress`. -/
theorem peerList_writeConnectAddress (sound : Sound links (instances i) full later party)
    (properties : Properties) (channel : Text) :
    peerList (execAll later (party.config.writeConnectAddress properties)) (instances i) channel =
      peerList later (instances i) channel := by
  apply ready.peerList_writeAddress sound
  intro name known key mark
  cases mark

/-- `WriteBindAddress` publishes the sub-sockets of a bind channel. -/
theorem published_writeBindAddress (sound : Sound links (instances i) full later party)
    (presents : Presents links instances full (instances i) later party)
    (early : party.phase.written = false) {properties : Properties}
    (shows_ : ShowsAddresses properties party.config.fBindChannels)
    (makes : MakesSockets party.config (.writeBindAddress properties)) {channel : Text}
    (known : channel ∈ party.config.fBindChannels)
    (linked : Linked links (instances i).fServiceName channel) :
    Published (execAll later (party.config.writeBindAddress properties)) (instances i) channel := by
  rcases sound.sameKeys with ⟨sameService, sameId, partyStandard⟩
  have standard := partyStandard (ready.standard i)
  rcases Option.isSome_iff_exists.mp (AList.lookup_isSome.mpr known) with ⟨sp, found⟩
  rcases ready.channelName_of_lookup sound (Or.inl found) with ⟨name, sameName⟩
  have count : subSocketCount properties channel =
      max 1 (peerList later (instances i) channel).length := by
    rw [← sameName, makes (channel, sp) (mem_ordered.mpr found), sameName,
      presents.counted channel sp (Or.inl found) linked, Int.toNat_natCast]
  have fresh : ∀ key ∈ later,
      ¬ socketKeyPrefix (instances i).fServiceName (instances i).fId channel <+: key :=
    fun key member isPrefix => presents.unpublished early key member
      (socketKeyPrefix_area.trans isPrefix)
  have carries : Carries (instances i) channel later party.published :=
    fun key member isPrefix => absurd isPrefix (fresh key member)
  have carriesNow := sound.carries_writeAddress (ready.standard i) carries shows_
    (f := party.config.markBound) (fun name command mark => by
      rw [markBound] at mark
      exact ⟨_, List.mem_singleton.mp mark⟩)
  constructor
  · intro key
    rw [ready.peerList_writeBindAddress sound]
    constructor
    · rintro ⟨member, isPrefix⟩
      rcases mem_or_created_of_mem_execAll later member with before | new
      · exact absurd isPrefix (fresh key before)
      · rcases exists_of_mem_createdKeys new with ⟨command, written, rfl⟩
        rw [← sameService, ← sameId] at isPrefix
        rcases socketKey_of_mem_writeBindAddress standard name.name.dotFree
          (fun other sp found => by
            rcases ready.channelName_of_lookup sound (Or.inl found) with ⟨name, sameName⟩
            exact ⟨sameName, name.name.dotFree⟩) written isPrefix with ⟨index, below, equal⟩
        rw [sameService, sameId] at equal
        exact ⟨index, count ▸ below, equal⟩
    · rintro ⟨index, below, rfl⟩
      refine ⟨?_, List.prefix_append _ _⟩
      rcases @address_mem_writeSubSocket party.config properties sp index
        (shows_ (channel, sp) (mem_ordered.mpr found) index (by rw [sameName, count]; exact below))
        with ⟨fields, written, -⟩
      have inCommands : Command.hset (party.config.socketKey sp.name index) fields ∈
          party.config.writeBindAddress properties := by
        apply List.mem_flatMap.mpr
        refine ⟨(channel, sp), mem_ordered.mpr found, List.mem_append_left _ ?_⟩
        apply List.mem_flatMap.mpr
        exact ⟨index, List.mem_range.mpr (by rw [sameName, count]; exact below), written⟩
      rw [socketKey_eq standard, sameName, sameService, sameId] at inCommands
      exact mem_execAll_of_hset later inCommands
  · intro key member isPrefix
    rcases carriesNow key member isPrefix with ⟨text, -, address⟩
    exact address ▸ rfl

/-- After `WriteBindAddress`, the hashes are marked and the sub-sockets are there. -/
theorem presents_writeBindAddress (sound : Sound links (instances i) full later party)
    (presents : Presents links instances full (instances i) later party)
    (initialized : party.phase = .initialized) {properties : Properties}
    (shows_ : ShowsAddresses properties party.config.fBindChannels)
    (makes : MakesSockets party.config (.writeBindAddress properties)) :
    Presents links instances full (instances i) (party.writeBindAddress later properties).1
      (party.writeBindAddress later properties).2 := by
  rcases sound.sameKeys with ⟨sameService, sameId, partyStandard⟩
  have standard := partyStandard (ready.standard i)
  have early : party.phase.written = false := by rw [initialized]; rfl
  have keyEq (channel : Text) : party.config.channelKey channel =
      instanceChannelKey (instances i).fServiceName (instances i).fId channel := by
    rw [channelKey_eq standard, sameService, sameId]
  have same {key : Text}
      (inChannels : area (instances i).fServiceName (instances i).fId channelPrefix <+: key)
      (unmarked : ∀ name ∈ party.config.fBindChannels,
        key ≠ instanceChannelKey (instances i).fServiceName (instances i).fId name) :
      (execAll later (party.config.writeBindAddress properties)).lookup key = later.lookup key := by
    apply ready.lookup_writeAddress sound inChannels
    intro name known mark
    rw [ready.createdKeys_markBound sound] at mark
    exact unmarked name known (List.mem_singleton.mp mark)
  have lists := ready.peerList_writeBindAddress sound properties
  constructor
  · intro channel name peer member
    rw [Party.writeBindAddress, lists] at member
    exact presents.peers channel name peer member
  · intro channel name
    rcases presents.hash channel name with ⟨sp, counted, hash⟩
    simp only [Party.writeBindAddress]
    rw [lists]
    by_cases known : channel ∈ party.config.fBindChannels
    · refine ⟨{ sp with bound := true }, counted, hash.mark ?_⟩
      intro field
      rw [← keyEq]
      exact hget_writeBindAddress properties known later field
    · refine ⟨sp, counted, hash.congr (same (area_prefix_instanceChannelKey _ _ _) ?_)⟩
      rintro other isBind equal
      rw [instanceChannelKey_right_injective _ _ equal] at known
      exact known isBind
  · intro channel name member
    apply List.mem_append_left
    apply presents.paired channel name
    refine (mem_of_lookup_eq (same (area_prefix_instancePeerKey _ _ _) ?_)).mp member
    intro other known
    have isName := ready.channelName_of_mem sound known
    exact instancePeerKey_ne_instanceChannelKey isName.name.part _ _ _
  · intro channel sp found linked
    rw [Party.writeBindAddress, lists]
    exact presents.counted channel sp found linked
  · exact presents.unaddressed
  · intro _
    exact presents.complete (by rw [initialized]; decide)
  · intro written
    cases written
  · intro _ channel known linked
    exact ready.published_writeBindAddress sound presents early shows_ makes known linked

/-- `WriteConnectAddress` writes none of the keys of the bind channels. -/
theorem presents_writeConnectAddress (sound : Sound links (instances i) full later party)
    (presents : Presents links instances full (instances i) later party)
    (resolved : party.phase = .resolved) (properties : Properties) :
    Presents links instances full (instances i) (party.writeConnectAddress later properties).1
      (party.writeConnectAddress later properties).2 := by
  rcases sound.sameKeys with ⟨sameService, sameId, partyStandard⟩
  have standard := partyStandard (ready.standard i)
  have same {key : Text}
      (inChannels : area (instances i).fServiceName (instances i).fId channelPrefix <+: key) :
      (execAll later (party.config.writeConnectAddress properties)).lookup key =
        later.lookup key := by
    apply ready.lookup_writeAddress sound inChannels
    intro name known mark
    cases mark
  have lists := ready.peerList_writeConnectAddress sound properties
  constructor
  · intro channel name peer member
    rw [Party.writeConnectAddress, lists] at member
    exact presents.peers channel name peer member
  · intro channel name
    rcases presents.hash channel name with ⟨sp, counted, hash⟩
    simp only [Party.writeConnectAddress]
    rw [lists]
    exact ⟨sp, counted, hash.congr (same (area_prefix_instanceChannelKey _ _ _))⟩
  · intro channel name member
    apply List.mem_append_left
    apply presents.paired channel name
    exact (mem_of_lookup_eq (same (area_prefix_instancePeerKey _ _ _))).mp member
  · intro channel sp found linked
    rw [Party.writeConnectAddress, lists]
    exact presents.counted channel sp found linked
  · exact presents.unaddressed
  · intro _
    exact presents.complete (by rw [resolved]; decide)
  · intro written
    cases written
  · intro _ channel known linked
    apply (presents.published (by rw [resolved]; rfl) channel known linked).congr (lists channel)
    intro key isPrefix
    apply lookup_execAll_of_notMem_createdKeys
    intro new
    rcases (createdKeys_writeAddress party.config _ _ _ _).mp new with address | ⟨-, -, mark⟩
    · -- The channel would be one of the connect channels, and have their method.
      rcases List.mem_flatMap.mp address with ⟨⟨other, sp⟩, inChannels, address⟩
      rcases List.mem_map.mp address with ⟨index, -, rfl⟩
      have connected := mem_ordered.mp inChannels
      rcases ready.channelName_of_lookup sound (Or.inr connected) with ⟨otherName, sameName⟩
      have bindName := ready.channelName_of_mem sound known
      rw [socketKey_eq standard, sameService, sameId, sameName] at isPrefix
      rcases isPrefix with ⟨rest, equal⟩
      have parts : channel ++ '.' :: rest = other ++ '.' :: Text.decimal index := by
        simpa [instanceSocketKey, socketKeyPrefix] using equal
      rcases Text.append_separator_inj bindName.name.dotFree otherName.name.dotFree parts with
        ⟨rfl, -⟩
      rcases Option.isSome_iff_exists.mp (AList.lookup_isSome.mpr known) with ⟨bindSp, bound⟩
      rcases sound.ofEndpoint channel bindSp (Or.inl bound) with ⟨-, base, declares, method⟩
      rcases sound.ofEndpoint channel sp (Or.inr connected) with ⟨-, base', declares', method'⟩
      cases declares.unique declares'
      rw [sound.sorted.bind channel bindSp bound] at method
      rw [sound.sorted.connect channel sp connected, method] at method'
      exact absurd method' (by decide)
    · cases mark

omit ready in
/-- `Reset` takes everything back but marks. -/
theorem presents_reset (sound : Sound links (instances i) full later party)
    (presents : Presents links instances full (instances i) later party) :
    Presents links instances full (instances i) (party.reset later).1 (party.reset later).2 := by
  have shared : (party.reset later).1 = del later party.config.fRegisteredKeys := rfl
  have unlisted (channel : Text) :
      instancePeerKey (instances i).fServiceName (instances i).fId channel ∉
        (party.reset later).1 := by
    intro stored
    rcases (mem_del later).mp stored with ⟨notDeleted, before⟩
    exact notDeleted (sound.mem_of_peerKey before)
  have lists (channel : Text) : peerList (party.reset later).1 (instances i) channel = [] := by
    rw [peerList, lrange, AList.lookup_eq_none.mpr (unlisted channel)]
  have noChannel (name : Text) (sp : SocketProperty) :
      ¬ ((party.reset later).2.config.fBindChannels.lookup name = some sp ∨
        (party.reset later).2.config.fConnectChannels.lookup name = some sp) := by
    rintro (found | found) <;> cases found
  constructor
  · intro channel name peer member
    rw [lists] at member
    cases member
  · intro channel name
    rw [lists]
    by_cases known : instanceChannelKey (instances i).fServiceName (instances i).fId channel ∈
        party.config.fRegisteredKeys
    · refine ⟨{}, rfl, HashOf.of_notMem ?_ rfl⟩
      intro stored
      exact ((mem_del later).mp stored).1 known
    · rcases presents.hash channel name with ⟨sp, counted, hash⟩
      have unlistedBefore : instancePeerKey (instances i).fServiceName (instances i).fId channel ∉
          later := fun stored => known (presents.paired channel name stored)
      refine ⟨sp, ?_, hash.congr ?_⟩
      · rw [counted, peerList, lrange, AList.lookup_eq_none.mpr unlistedBefore]
      · rw [shared, lookup_del, if_neg known]
  · intro channel name member
    exact absurd member (unlisted channel)
  · exact fun channel sp found => absurd found (noChannel channel sp)
  · exact fun channel sp found => absurd (Or.inr found) (noChannel channel sp)
  · intro busy
    exact absurd rfl busy
  · intro _ key member inSockets
    rcases (mem_del later).mp member with ⟨notDeleted, before⟩
    exact notDeleted (sound.mem_of_area before inSockets)
  · intro written
    cases written

/-- Every step of a cycle keeps what an instance presents. -/
theorem presents_step (endpoints : LinksEndpoints links full AutoSubChannel)
    (surrounds : Surrounds links full later) (sound : Sound links (instances i) full later party)
    (presents : Presents links instances full (instances i) later party) {action : CycleAction}
    {result : Db × Party} (makes : MakesSockets party.config action)
    (acts : party.Acts later action result) :
    Presents links instances full (instances i) result.1 result.2 := by
  cases acts with
  | initializeTopology idle =>
      exact ready.presents_initializeTopology endpoints surrounds sound presents idle
  | writeBindAddress properties initialized shows_ =>
      exact ready.presents_writeBindAddress sound presents initialized shows_ makes
  | waitBindAddress bindWritten => exact presents.proceed rfl (by rw [bindWritten]; rfl) rfl
  | resolveConnectAddress waited => exact presents.proceed rfl (by rw [waited]; rfl) rfl
  | throw waited => exact presents.proceed rfl (by rw [waited]; rfl) rfl
  | writeConnectAddress properties resolved =>
      exact ready.presents_writeConnectAddress sound presents resolved properties
  | reset => exact presents_reset sound presents

end Ready

end NestDaq.Topology
