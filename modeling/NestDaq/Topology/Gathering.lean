import NestDaq.Topology.Arrivals

/-!
# Gathering before Initialize

`WaitBindAddress` waits for the channels of the peers that are present, and takes a mark
at the hash of a channel for one of its present cycle. That is enough for the addresses
to be there when all instances come before any of them initializes its topology, and
nobody resets or leaves while another one is on its way from `Initialize` to the end of
`ResolveConnectAddress`.
-/

namespace NestDaq.Topology

open NestDaq.Registry
open NestDaq.Store
open NestDaq.Transition
open Instance
open TopologyConfig

variable {ι : Type} {links : List LinkKey} {instances : ι → TopologyConfig} {full later start : Db}
  {config : TopologyConfig}

/-- From `Initialize` to the end of `ResolveConnectAddress`. -/
def Phase.connecting : Phase → Bool
  | initialized | bindWritten | waited => true
  | _ => false

/-- Some instance belongs to the far end of a link of the channel. -/
def HasPeer (links : List LinkKey) (instances : ι → TopologyConfig) (service channel : Text) :
    Prop :=
  ∃ peer, PeerOf links instances service channel peer

/-- What the registry holds of an instance that has initialized its topology with all
others: its lists are complete, and the hashes of its channels go with its cycle. -/
structure Complete (links : List LinkKey) (instances : ι → TopologyConfig)
    (config : TopologyConfig) (later : Db) (party : Party) : Prop where
  listed : party.phase ≠ .idle → ∀ channel ∈ party.config.fBindChannels, ∀ peer,
    PeerOf links instances config.fServiceName channel peer → peer ∈ peerList later config channel
  registered : ∀ channel, ChannelName channel →
    HasPeer links instances config.fServiceName channel →
    instanceChannelKey config.fServiceName config.fId channel ∈ later →
      instanceChannelKey config.fServiceName config.fId channel ∈ party.config.fRegisteredKeys
  marked : ∀ channel, ChannelName channel → HasPeer links instances config.fServiceName channel →
    isBound later (instanceChannelKey config.fServiceName config.fId channel) = true →
      party.phase.written = true
  known : party.phase ≠ .idle → ∀ link ∈ links, link.ReadBy config.fServiceName →
    (link.seenBy config.fServiceName []).spelling.pairName ∈ party.config.fLinks

/-! ## One instance -/

section Complete

variable {db : Db} {party next : Party}

/-- What others write does not matter. -/
theorem Complete.congr (complete : Complete links instances config db party)
    (same : ∀ key, OwnArea config key → later.lookup key = db.lookup key) :
    Complete links instances config later party := by
  have sameHash (channel : Text) := same (instanceChannelKey config.fServiceName config.fId channel)
    (Or.inl (area_prefix_instanceChannelKey _ _ _))
  constructor
  · intro busy channel isBind peer isPeer
    rw [peerList_congr same]
    exact complete.listed busy channel isBind peer isPeer
  · intro channel name hasPeer stored
    exact complete.registered channel name hasPeer ((mem_of_lookup_eq (sameHash channel)).mp stored)
  · intro channel name hasPeer bound
    rw [isBound_congr (sameHash channel)] at bound
    exact complete.marked channel name hasPeer bound
  · exact complete.known

/-- A step that changes the phase only. -/
theorem Complete.proceed (complete : Complete links instances config later party)
    (sameConfig : next.config = party.config) (before : party.phase.written = true)
    (written : next.phase.written = true) : Complete links instances config later next := by
  have busy := Phase.ne_idle_of_written before
  constructor
  · rw [sameConfig]
    exact fun _ => complete.listed busy
  · rw [sameConfig]
    exact complete.registered
  · exact fun _ _ _ _ => written
  · rw [sameConfig]
    exact fun _ => complete.known busy

theorem not_isBound_of_notMem {key : Text} (absent : key ∉ db) : isBound db key = false := by
  rw [isBound, hget, hgetall, AList.lookup_eq_none.mpr absent]
  rfl

/-- In the state `Idle` it is enough that no channel with peers has a hash. -/
theorem complete_of_idle (idle : party.phase = .idle)
    (none : ∀ channel, ChannelName channel → HasPeer links instances config.fServiceName channel →
      instanceChannelKey config.fServiceName config.fId channel ∉ later) :
    Complete links instances config later party := by
  constructor
  · exact fun busy => absurd idle busy
  · exact fun channel name hasPeer stored => absurd stored (none channel name hasPeer)
  · intro channel name hasPeer bound
    rw [not_isBound_of_notMem (none channel name hasPeer)] at bound
    cases bound
  · exact fun busy => absurd idle busy

end Complete

namespace Ready

variable (ready : Ready links instances full) {i : ι} {party : Party}

include ready

/-- And none has, as nothing is registered. -/
theorem notMem_of_idle (sound : Sound links (instances i) full later party)
    (complete : Complete links instances (instances i) later party) (idle : party.phase = .idle)
    {channel : Text} (name : ChannelName channel)
    (hasPeer : HasPeer links instances (instances i).fServiceName channel) :
    instanceChannelKey (instances i).fServiceName (instances i).fId channel ∉ later := by
  intro stored
  have registered := complete.registered channel name hasPeer stored
  rw [sound.idle idle, knowing, ready.noKeys i] at registered
  cases registered

/-- `Initialize` finds all peers when all of them are present. -/
theorem complete_initializeTopology (surrounds : Surrounds links full later)
    (unmarked : ∀ service channel, isBound full (serviceEndpointKey service channel) = false)
    (present : ∀ j, presenceKey (instances j).fServiceName (instances j).fId ∈ later)
    (sound : Sound links (instances i) full later party)
    (complete : Complete links instances (instances i) later party)
    (idle : party.phase = .idle) :
    Complete links instances (instances i) (party.initializeTopology later).1
      (party.initializeTopology later).2 := by
  have standard := ready.standard i
  rcases ready.exists_initializeTopology surrounds.sameTopology sound idle with
    ⟨current, result, initializes, equation⟩
  have collected := initializes.collected
  have registered := initializes.fRegisteredKeys_eq
  rw [ready.noKeys i, List.nil_append] at registered
  have created := createdKeys_configured (instances i) result.2.2
  have spec {record : Configured} (inRecords : record ∈ result.2.2) :=
    ready.record_spec initializes surrounds inRecords
  have written {channel : Text} (name : ChannelName channel) :=
    ready.entered_initializeTopology initializes surrounds sound idle name.name.part
  rw [equation]
  constructor
  · rintro - channel isBind peer ⟨link, inLinks, far, joins, j, service, rfl⟩
    rcases Option.isSome_iff_exists.mp (AList.lookup_isSome.mpr isBind) with ⟨sp, found⟩
    rcases collected.record_of_lookup initializes.published (Or.inl found) with
      ⟨record, inRecords, -, rfl⟩
    have inPeers := (ready.mem_record_peers initializes inRecords).mpr
      ⟨link, inLinks, far, joins, (instances j).fId, service ▸ present j, rfl⟩
    rw [ready.peerList_initializeTopology initializes surrounds sound idle inRecords]
    exact inPeers
  · intro channel name hasPeer stored
    rcases mem_or_created_of_mem_execAll later stored with before | new
    · exact absurd before (ready.notMem_of_idle sound complete idle name hasPeer)
    · rw [created, ← registered] at new
      exact new
  · intro channel name hasPeer bound
    rcases written name with ⟨record, inRecords, -, -, -, texts⟩ | ⟨same, -⟩
    · rcases (spec inRecords).2.2 with ⟨base, declares, -, sameBound, -⟩
      have notMarked := unmarked (instances i).fServiceName record.sp.name
      rw [isBound, hget, ← bound_of_toSocketProperty declares.read, ← sameBound] at notMarked
      rw [isBound, texts, fieldText, notMarked] at bound
      exact absurd bound (by decide)
    · rw [isBound_congr same,
        not_isBound_of_notMem (ready.notMem_of_idle sound complete idle name hasPeer)] at bound
      cases bound
  · intro _ link inLinks readBy
    rcases initializes.published.identity with ⟨bind, connect, keys, resultEq⟩
    rw [show (_ : TopologyConfig × Db × List Configured).1.fLinks = current.fLinks by rw [resultEq]]
    exact collected.known link inLinks readBy

/-- `WriteBindAddress` marks hashes that are registered. -/
theorem complete_writeBindAddress (sound : Sound links (instances i) full later party)
    (presents : Presents links instances full (instances i) later party)
    (complete : Complete links instances (instances i) later party)
    (initialized : party.phase = .initialized) (properties : Properties) :
    Complete links instances (instances i) (party.writeBindAddress later properties).1
      (party.writeBindAddress later properties).2 := by
  have busy : party.phase ≠ .idle := by
    rw [initialized]
    decide
  rcases sound.sameKeys with ⟨sameService, sameId, standard⟩
  constructor
  · intro _ channel isBind peer isPeer
    rw [Party.writeBindAddress, ready.peerList_writeBindAddress sound]
    exact complete.listed busy channel isBind peer isPeer
  · rintro channel name ⟨peer, isPeer⟩ stored
    apply List.mem_append_left
    rcases mem_or_created_of_mem_execAll later stored with before | new
    · exact complete.registered channel name ⟨peer, isPeer⟩ before
    rcases (createdKeys_writeAddress party.config _ _ _ _).mp new with
      address | ⟨other, isBind, mark⟩
    · rcases exists_of_mem_addressKeys (standard (ready.standard i)) address with
        ⟨socket, index, equal⟩
      rw [sameService, sameId] at equal
      have inSockets := area_prefix_instanceSocketKey (instances i).fServiceName (instances i).fId
        socket index
      exact absurd (equal ▸ inSockets) (not_area_socket (area_prefix_instanceChannelKey _ _ _))
    · -- The channel has peers, so that `Initialize` has written its list and registered both.
      rw [ready.createdKeys_markBound sound] at mark
      obtain rfl := instanceChannelKey_right_injective _ _ (List.mem_singleton.mp mark)
      apply presents.paired channel name
      have inList := complete.listed busy channel isBind peer isPeer
      by_contra absent
      rw [peerList, lrange, AList.lookup_eq_none.mpr absent] at inList
      cases inList
  · exact fun _ _ _ _ => rfl
  · exact fun _ => complete.known busy

/-- `WriteConnectAddress` does not touch them. -/
theorem complete_writeConnectAddress (sound : Sound links (instances i) full later party)
    (complete : Complete links instances (instances i) later party)
    (resolved : party.phase = .resolved) (properties : Properties) :
    Complete links instances (instances i) (party.writeConnectAddress later properties).1
      (party.writeConnectAddress later properties).2 := by
  have busy : party.phase ≠ .idle := by
    rw [resolved]
    decide
  constructor
  · intro _ channel isBind peer isPeer
    rw [Party.writeConnectAddress, ready.peerList_writeConnectAddress sound]
    exact complete.listed busy channel isBind peer isPeer
  · intro channel name hasPeer stored
    apply List.mem_append_left
    apply complete.registered channel name hasPeer
    refine (mem_of_lookup_eq (ready.lookup_writeAddress sound
      (area_prefix_instanceChannelKey _ _ _) ?_)).mp stored
    intro other known mark
    cases mark
  · exact fun _ _ _ _ => rfl
  · exact fun _ => complete.known busy

omit ready in
/-- `Reset` deletes what is registered. -/
theorem complete_reset (complete : Complete links instances (instances i) later party) :
    Complete links instances (instances i) (party.reset later).1 (party.reset later).2 := by
  apply complete_of_idle rfl
  intro channel name hasPeer stored
  rcases (mem_del later).mp stored with ⟨notDeleted, before⟩
  exact notDeleted (complete.registered channel name hasPeer before)

/-- Every step of a cycle keeps the lists and the hashes. -/
theorem complete_step (surrounds : Surrounds links full later)
    (unmarked : ∀ service channel, isBound full (serviceEndpointKey service channel) = false)
    (sound : Sound links (instances i) full later party)
    (presents : Presents links instances full (instances i) later party)
    (complete : Complete links instances (instances i) later party) {action : CycleAction}
    (present : action = .initializeTopology →
      ∀ j, presenceKey (instances j).fServiceName (instances j).fId ∈ later)
    {result : Db × Party} (acts : party.Acts later action result) :
    Complete links instances (instances i) result.1 result.2 := by
  cases acts with
  | initializeTopology idle =>
      exact ready.complete_initializeTopology surrounds unmarked (present rfl) sound complete idle
  | writeBindAddress properties initialized =>
      exact ready.complete_writeBindAddress sound presents complete initialized properties
  | waitBindAddress bindWritten => exact complete.proceed rfl (by rw [bindWritten]; rfl) rfl
  | resolveConnectAddress waited => exact complete.proceed rfl (by rw [waited]; rfl) rfl
  | throw waited => exact complete.proceed rfl (by rw [waited]; rfl) rfl
  | writeConnectAddress properties resolved =>
      exact ready.complete_writeConnectAddress sound complete resolved properties
  | reset => exact complete_reset complete

/-- Every step of an instance keeps them. -/
theorem complete_moves (surrounds : Surrounds links full later)
    (unmarked : ∀ service channel, isBound full (serviceEndpointKey service channel) = false)
    {member : Member} (standing : Standing links instances full (instances i) later member)
    (complete : Complete links instances (instances i) later member.party) {action : MemberAction}
    (present : action = .cycle .initializeTopology →
      ∀ j, presenceKey (instances j).fServiceName (instances j).fId ∈ later)
    {result : Db × Member} (moves : member.Moves later action result) :
    Complete links instances (instances i) result.1 result.2.party := by
  have sound := standing.sound
  rcases sound.sameKeys with ⟨sameService, sameId, -⟩
  cases moves with
  | setId absent fUuid =>
      rw [sameService, sameId]
      exact complete.congr fun key own => lookup_set_of_ne later (ne_presenceKey_of_ownArea own) _
  | register present health hostIp =>
      rw [sameService, sameId]
      exact complete.congr fun key own => lookup_hset_of_ne later (ne_healthKey_of_ownArea own) _
  | cycle here makes acts =>
      exact ready.complete_step surrounds unmarked sound standing.presents complete
        (fun same => present (congrArg _ same)) acts
  | crash => exact complete
  | reset => exact complete_reset complete
  | unregister closing =>
      have idle : member.party.phase = .idle := by
        apply standing.resting.resolve_left
        rw [closing]
        exact id
      apply complete_of_idle rfl
      intro channel name hasPeer stored
      exact ready.notMem_of_idle sound complete idle name hasPeer ((mem_del later).mp stored).2

end Ready

/-- The instance resets or leaves. -/
def MemberAction.Ends : MemberAction → Prop
  | .cycle .reset | .reset | .unregister => True
  | _ => False

namespace Member.Moves

variable {member : Member} {action : MemberAction} {result : Db × Member}
  (moves : member.Moves later action result)

include moves

theorem unregister_of_absent (absent : result.2.stay = .absent) : action = .unregister := by
  cases moves with
  | unregister => rfl
  | cycle here => cases here.symm.trans absent
  | setId | register | crash | reset => cases absent

theorem connecting (connects : result.2.party.phase.connecting = true) :
    member.party.phase.connecting = true ∨ action = .cycle .initializeTopology := by
  cases moves with
  | setId | register | crash => exact Or.inl connects
  | reset | unregister => cases connects
  | cycle here makes acts =>
      cases acts with
      | initializeTopology => exact Or.inr rfl
      | writeBindAddress properties initialized => exact Or.inl (initialized ▸ rfl)
      | waitBindAddress bindWritten => exact Or.inl (bindWritten ▸ rfl)
      | resolveConnectAddress | throw | writeConnectAddress | reset => cases connects

theorem written (before : member.party.phase.written = true) :
    result.2.party.phase.written = true ∨ action.Ends := by
  cases moves with
  | setId | register | crash => exact Or.inl before
  | reset | unregister => exact Or.inr trivial
  | cycle here makes acts =>
      cases acts with
      | initializeTopology idle =>
          rw [idle] at before
          cases before
      | writeBindAddress | waitBindAddress | resolveConnectAddress | throw | writeConnectAddress =>
          exact Or.inl rfl
      | reset => exact Or.inr trivial

theorem waited (waits : result.2.party.phase = .waited) :
    result.2.party.config = member.party.config ∧
      (member.party.phase = .waited ∨
        action = .cycle .waitBindAddress ∧ member.party.phase = .bindWritten) := by
  cases moves with
  | setId | register | crash => exact ⟨rfl, Or.inl waits⟩
  | reset | unregister => cases waits
  | cycle here makes acts =>
      cases acts with
      | waitBindAddress bindWritten => exact ⟨rfl, Or.inr ⟨rfl, bindWritten⟩⟩
      | initializeTopology | writeBindAddress | resolveConnectAddress | throw
      | writeConnectAddress | reset => cases waits

end Member.Moves

/-- `WaitBindAddress` returns when all channels that it waits for are bound. -/
theorem Member.waitBindAddress_of_step {member : Member} {result : Db × Member}
    (stepped : Member.step (later, member) (.cycle .waitBindAddress) = some result) :
    member.party.config.waitBindAddress later = true := by
  by_contra waits
  rw [Bool.not_eq_true] at waits
  have refused : Party.step (later, member.party) .waitBindAddress = none := by
    cases phase : member.party.phase <;> simp [Party.step, phase, waits]
  cases stay : member.stay <;> simp [Member.step, stay, MakesSockets, Member.cycle, refused,
    Member.fault] at stepped

/-- The channels that `WaitBindAddress` waits for are the peers found at that moment. -/
theorem Separate.mem_waitedChannels {db : Db} (separate : Separate links config.fServiceName)
    (recorded : Recorded config.fServiceName links config.fLinks) {channel : Text}
    {sp : SocketProperty} (found : config.fConnectChannels.lookup channel = some sp) {key : Text}
    (member : key ∈ config.peers db sp.name) : key ∈ config.waitedChannels db := by
  rw [peers, mem_sortUnique, contributedPeers, List.mem_flatMap] at member
  rcases member with ⟨entry, inLinks, contributed⟩
  rw [separate.linkPeers_eq recorded db sp.name inLinks] at contributed
  split_ifs at contributed with sameChannel
  · rcases separate.near recorded (mem_ordered.mp inLinks) with ⟨my, -⟩
    refine List.mem_flatMap.mpr ⟨(channel, sp), mem_ordered.mpr found,
      List.mem_flatMap.mpr ⟨entry, inLinks, ?_⟩⟩
    simp only
    rw [if_pos ⟨my.symm, sameChannel.symm⟩]
    exact contributed
  · cases contributed

/-! ## All instances -/

/-- Nobody initializes before all are there, and nobody resets or leaves while another one
is on its way from `Initialize` to the end of `ResolveConnectAddress`. -/
def Orderly (network : Network ι Db Member) : ι × MemberAction → Prop
  | (_, .cycle .initializeTopology) => ∀ j, (network.party j).stay ≠ .absent
  | (i, .cycle .reset) | (i, .reset) | (i, .unregister) =>
      ∀ j, j ≠ i → (network.party j).party.phase.connecting = false
  | _ => True

instance [Fintype ι] [DecidableEq ι] (network : Network ι Db Member) :
    ∀ action, Decidable (Orderly network action)
  | (_, .cycle .initializeTopology) => inferInstanceAs (Decidable (∀ _, _ ≠ _))
  | (_, .cycle .reset) | (_, .reset) | (_, .unregister) =>
      inferInstanceAs (Decidable (∀ j, j ≠ _ → (network.party j).party.phase.connecting = false))
  | (_, .cycle (.writeBindAddress _)) | (_, .cycle .waitBindAddress)
  | (_, .cycle .resolveConnectAddress) | (_, .cycle (.writeConnectAddress _))
  | (_, .setId _) | (_, .register _) => .isTrue trivial

theorem Orderly.others {network : Network ι Db Member} {i : ι} {action : MemberAction}
    (orderly : Orderly network (i, action)) (ends : action.Ends) {j : ι} (differs : j ≠ i) :
    (network.party j).party.phase.connecting = false := by
  cases action with
  | reset | unregister => exact orderly j differs
  | setId | register => cases ends
  | cycle action =>
      cases action with
      | reset => exact orderly j differs
      | _ => cases ends

/-- The invariant: whoever is on its way has found everybody, and whoever has waited has
waited for the addresses of all its peers. -/
structure Gathers (links : List LinkKey) (instances : ι → TopologyConfig) (full : Db)
    (network : Network ι Db Member) : Prop extends Attends links instances full network where
  complete : ∀ i, Complete links instances (instances i) network.shared (network.party i).party
  present : ∀ i, (network.party i).stay ≠ .absent →
    presenceKey (instances i).fServiceName (instances i).fId ∈ network.shared
  gathered : ∀ i, (network.party i).party.phase.connecting = true →
    ∀ j, (network.party j).stay ≠ .absent
  awaited : ∀ i, (network.party i).party.phase = .waited →
    ∀ channel ∈ (network.party i).party.config.fConnectChannels, ∀ link ∈ links, ∀ j far,
      link.Joins ((instances i).fServiceName, channel) ((instances j).fServiceName, far) →
        (network.party j).party.phase.written = true

namespace Gathers

variable {network : Network ι Db Member} (gathers : Gathers links instances full network)
  (ready : Ready links instances full) (counts : LinksEndpoints links full AutoSubChannel)

include gathers ready counts

/-- Whoever resolves addresses is answered. -/
theorem answered (action : ι × MemberAction) : Answered instances network action := by
  unfold Answered
  split
  · rename_i i
    intro here waited channel isConnect peer listed
    have isConnect := AList.mem_keys.mpr isConnect
    rcases Option.isSome_iff_exists.mp (AList.lookup_isSome.mpr isConnect) with ⟨sp, found⟩
    rcases ready.channelName_of_lookup (gathers.standing i).sound (Or.inr found) with ⟨name, -⟩
    rcases (gathers.standing i).presents.peers channel name peer listed with
      ⟨link, inLinks, ⟨service, far⟩, joins, j, sameService, rfl⟩
    obtain rfl : (instances j).fServiceName = service := sameService
    have written := gathers.awaited i waited channel isConnect link inLinks j far joins
    have busy := Phase.ne_idle_of_written written
    have known := (gathers.bind_of_joins ready counts found inLinks joins).2 busy
    refine ⟨j, far, AList.mem_keys.mp known, rfl, written, Or.inr ?_⟩
    exact (gathers.complete j).listed busy far known _
      ⟨link, inLinks, _, joins.symm, i, rfl, rfl⟩
  · trivial

/-- `WaitBindAddress` has seen the marks of all peers. -/
theorem written_of_waitBindAddress {i : ι}
    (bindWritten : (network.party i).party.phase = .bindWritten)
    (waits : (network.party i).party.config.waitBindAddress network.shared = true) {channel : Text}
    (isConnect : channel ∈ (network.party i).party.config.fConnectChannels) {link : LinkKey}
    (inLinks : link ∈ links) {j : ι} {far : Text}
    (joins : link.Joins ((instances i).fServiceName, channel) ((instances j).fServiceName, far)) :
    (network.party j).party.phase.written = true := by
  have sound := (gathers.standing i).sound
  rcases sound.sameKeys with ⟨sameService, sameId, standard⟩
  rcases Option.isSome_iff_exists.mp (AList.lookup_isSome.mpr isConnect) with ⟨sp, found⟩
  rcases ready.channelName_of_lookup sound (Or.inr found) with ⟨-, sameName⟩
  have separate := ready.separate i
  have recorded := sound.recorded
  have known := (gathers.complete i).known (by rw [bindWritten]; decide)
  have isPresent := gathers.present j (gathers.gathered i (by rw [bindWritten]; rfl) j)
  rw [← sameService] at separate recorded known joins
  have inPeers : instanceChannelKey (instances j).fServiceName (instances j).fId far ∈
      (network.party i).party.config.peers network.shared sp.name := by
    apply (mem_peers (standard (ready.standard i)) ready.declares.wellFormed recorded known).mpr
    rw [sameName]
    exact ⟨link, inLinks, _, Or.inl joins, (instances j).fId, isPresent, rfl⟩
  have bound := List.all_eq_true.mp waits _ (separate.mem_waitedChannels recorded found inPeers)
  rw [sameService] at joins
  exact (gathers.complete j).marked far (gathers.bind_of_joins ready counts found inLinks joins).1
    ⟨_, link, inLinks, _, joins.symm, i, rfl, rfl⟩ bound

end Gathers

/-- An instance that does not leave stays present. -/
theorem Ready.present_moves (ready : Ready links instances full) {i : ι} {member : Member}
    (surrounds : Surrounds links full later)
    (sound : Sound links (instances i) full later member.party)
    (present : member.stay ≠ .absent →
      presenceKey (instances i).fServiceName (instances i).fId ∈ later)
    {action : MemberAction} {result : Db × Member} (moves : member.Moves later action result)
    (stays : result.2.stay ≠ .absent) :
    presenceKey (instances i).fServiceName (instances i).fId ∈ result.1 := by
  rcases sound.sameKeys with ⟨sameService, sameId, -⟩
  have notWritten : ¬ Writes (instances i)
      (presenceKey (instances i).fServiceName (instances i).fId) :=
    fun writes => not_region_presenceKey _ _ writes.1
  cases moves with
  | setId absent fUuid =>
      rw [sameService, sameId, Store.set, AList.mem_insert]
      exact Or.inl rfl
  | register isPresent health hostIp =>
      rw [sameService, sameId]
      refine (mem_of_lookup_eq (lookup_hset_of_ne later ?_ health)).mpr
        (present (by rw [isPresent]; decide))
      exact (healthKey_ne_presenceKey _ _ _ _).symm
  | cycle here makes acts =>
      refine (mem_of_lookup_eq ?_).mpr (present (by rw [here]; decide))
      exact (ready.sound_step surrounds.sameTopology sound acts).2 _ notWritten
  | crash here => exact present (by rw [here]; decide)
  | reset here =>
      refine (mem_of_lookup_eq ?_).mpr (present (by rw [here]; decide))
      exact (ready.sound_reset sound).2 _ notWritten
  | unregister => exact absurd rfl stays

section Run

variable [DecidableEq ι] {network next : Network ι Db Member}

/-- Every orderly step keeps the invariant. -/
theorem Gathers.step (gathers : Gathers links instances full network)
    (ready : Ready links instances full) (counts : LinksEndpoints links full AutoSubChannel)
    (unmarked : ∀ service channel, isBound full (serviceEndpointKey service channel) = false)
    {action : ι × MemberAction} (orderly : Orderly network action)
    (stepped : Network.step Member.step network action = some next) :
    Gathers links instances full next := by
  have attends := gathers.toAttends.step ready counts stepped
  rcases action with ⟨i, action⟩
  rcases Option.map_eq_some_iff.mp stepped with ⟨result, acted, rfl⟩
  have moves := Member.moves_of_step acted
  have surrounds := gathers.surrounds
  have frame {j : ι} (differs : j ≠ i) {key : Text}
      (under : instanceKey (instances j).fServiceName (instances j).fId ++ [':'] <+: key) :
      result.1.lookup key = network.shared.lookup key :=
    ready.lookup_other surrounds (gathers.standing i).sound moves differs under
  -- All are there when the one that acts is on its way after its step.
  have allThere (connects : result.2.party.phase.connecting = true) :
      ∀ j, (network.party j).stay ≠ .absent := by
    rcases moves.connecting connects with before | rfl
    · exact gathers.gathered i before
    · exact orderly
  refine { attends with complete := ?_, present := ?_, gathered := ?_, awaited := ?_ }
  · intro j
    by_cases same : j = i
    · subst same
      rw [Network.acted_shared, Network.acted_party_self]
      apply ready.complete_moves surrounds unmarked (gathers.standing j) (gathers.complete j) _
        moves
      rintro rfl
      exact fun k => gathers.present k (orderly k)
    · rw [Network.acted_shared, Network.acted_party_of_ne _ same]
      exact (gathers.complete j).congr fun key own => frame same (instanceKey_of_ownArea own)
  · intro j stays
    by_cases same : j = i
    · subst same
      rw [Network.acted_party_self] at stays
      exact ready.present_moves surrounds (gathers.standing j).sound (gathers.present j) moves stays
    · rw [Network.acted_party_of_ne _ same] at stays
      refine (mem_of_lookup_eq (frame same ?_)).mpr (gathers.present j stays)
      exact instanceKey_of_touches (Or.inr (Or.inl rfl))
  · intro k connects j absent
    by_cases sameJ : j = i
    · subst sameJ
      rw [Network.acted_party_self] at absent
      cases moves.unregister_of_absent absent
      by_cases sameK : k = j
      · subst sameK
        rw [Network.acted_party_self] at connects
        cases moves
        cases connects
      · rw [Network.acted_party_of_ne _ sameK, orderly k sameK] at connects
        cases connects
    · rw [Network.acted_party_of_ne _ sameJ] at absent
      by_cases sameK : k = i
      · subst sameK
        rw [Network.acted_party_self] at connects
        exact allThere connects j absent
      · rw [Network.acted_party_of_ne _ sameK] at connects
        exact gathers.gathered k connects j absent
  · intro k waited channel isConnect link inLinks j far joins
    by_cases sameK : k = i
    · subst sameK
      rw [Network.acted_party_self] at waited isConnect
      rcases moves.waited waited with ⟨sameConfig, waits⟩
      rw [sameConfig] at isConnect
      by_cases sameJ : j = k
      · subst sameJ
        rw [Network.acted_party_self, waited]
        rfl
      · rw [Network.acted_party_of_ne _ sameJ]
        rcases waits with before | ⟨rfl, bindWritten⟩
        · exact gathers.awaited k before channel isConnect link inLinks j far joins
        · exact gathers.written_of_waitBindAddress ready counts bindWritten
            (Member.waitBindAddress_of_step acted) isConnect inLinks joins
    · rw [Network.acted_party_of_ne _ sameK] at waited isConnect
      have before := gathers.awaited k waited channel isConnect link inLinks j far joins
      by_cases sameJ : j = i
      · subst sameJ
        rw [Network.acted_party_self]
        apply (moves.written before).resolve_right
        intro ends
        have notConnecting := orderly.others ends sameK
        rw [waited] at notConnecting
        cases notConnecting
      · rw [Network.acted_party_of_ne _ sameJ]
        exact before

/-- In every interleaving in which nobody initializes before all are there, and nobody
resets or leaves while another one is on its way, no process crashes. -/
theorem always_safe_of_orderly (opening : Opening links instances full start)
    (unmarked : ∀ service channel, isBound full (serviceEndpointKey service channel) = false)
    {actions : List (ι × MemberAction)}
    (meets : Meets (Network.step Member.step) Orderly (beforeArrival instances start) actions) :
    Always (Network.step Member.step) Safe (beforeArrival instances start) actions := by
  apply @always_of_invariant _ _ _ Orderly
    (fun network => Gathers links instances full network ∧ Safe network)
  · rintro network ⟨i, action⟩ next ⟨gathers, safe⟩ orderly stepped
    refine ⟨gathers.step opening.toReady opening.counts unmarked orderly stepped, ?_⟩
    exact (gathers.safe_iff opening.toReady opening.counts safe stepped).mpr
      (gathers.answered opening.toReady opening.counts _)
  · exact And.right
  · refine ⟨{ opening.attends with complete := ?_, present := ?_, gathered := ?_, awaited := ?_ },
      fun i => id⟩
    · intro i
      apply complete_of_idle rfl
      exact fun channel name hasPeer stored =>
        opening.empty i _ stored (Or.inl (area_prefix_instanceChannelKey _ _ _))
    · exact fun i stays => absurd rfl stays
    · intro i connects
      cases connects
    · intro i waited
      cases waited
  · exact meets

end Run

/-! ### A source that comes again -/

/-- The source leaves when the sink is ready, and comes again before both go through
another cycle. -/
def again : List (Bool × MemberAction) :=
  together ++ [(true, .cycle (.writeConnectAddress ∅)), (false, .reset), (false, .unregister)] ++
    arrive false ++ [(true, .cycle .reset)] ++ publish ++ resolve

theorem counted_unmarked (service channel : Text) :
    isBound crowdedRegistry (serviceEndpointKey service channel) = false := by
  have unmarked : ∀ key ∈ crowdedRegistry.keys, isBound crowdedRegistry key = false := by
    decide +kernel
  by_cases stored : serviceEndpointKey service channel ∈ crowdedRegistry
  · exact unmarked _ (AList.mem_keys.mp stored)
  · exact not_isBound_of_notMem stored

/-- The sink gets the address of the source in both cycles. -/
theorem always_safe_again :
    Always (Network.step Member.step) Safe (beforeArrival (knot .none) countedRegistry) again ∧
      (Transition.run (Network.step Member.step) (beforeArrival (knot .none) countedRegistry)
          again).map (fun network =>
        ((network.party true).party.cycle, (network.party true).party.resolved.map (·.address))) =
        some (1, ["tcp://10.0.0.1:5001".toList]) :=
  ⟨always_safe_of_orderly counted_opening counted_unmarked (by decide +kernel), by decide +kernel⟩

end NestDaq.Topology
