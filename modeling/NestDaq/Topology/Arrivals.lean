import NestDaq.Topology.Members

/-!
# Arrivals and departures

The instances of a topology on one registry, in any order of their steps. Nobody spoils
what another one presents there, and who has left has left nothing that is read. A
process dies in `ResolveConnectAddress` exactly if one of the peers it has found does not
answer it at that moment, and always of a missing address.
-/

namespace NestDaq.Topology

open NestDaq.Registry
open NestDaq.Store
open NestDaq.Transition
open Instance
open TopologyConfig

variable {ι : Type} {links : List LinkKey} {instances : ι → TopologyConfig} {full later start : Db}
  {config : TopologyConfig}

/-- A key that an instance writes while it comes, goes through its cycles and leaves. -/
def Touches (config : TopologyConfig) (key : Text) : Prop :=
  Writes config key ∨ key = presenceKey config.fServiceName config.fId ∨
    key = healthKey config.fServiceName config.fId

theorem presenceKey_split (service instanceId : Text) :
    presenceKey service instanceId = instanceKey service instanceId ++ ':' :: presencePrefix := by
  simp [presenceKey_eq, instanceKey_eq]

theorem healthKey_split (service instanceId : Text) :
    healthKey service instanceId = instanceKey service instanceId ++ ':' :: healthPrefix := by
  simp [healthKey, instanceKey_eq, colon]

theorem instanceKey_of_touches {key : Text} (touches : Touches config key) :
    instanceKey config.fServiceName config.fId ++ [':'] <+: key := by
  rcases touches with ⟨-, own⟩ | rfl | rfl
  · exact instanceKey_of_ownArea own
  · exact ⟨presencePrefix, by simp [presenceKey_split]⟩
  · exact ⟨healthPrefix, by simp [healthKey_split]⟩

theorem not_ownArea_of_part {last : Text} (part : Part last) :
    ¬ OwnArea config (instanceKey config.fServiceName config.fId ++ ':' :: last) := by
  have absurdArea (kind : Text) : ¬ area config.fServiceName config.fId kind <+:
      instanceKey config.fServiceName config.fId ++ ':' :: last := by
    rintro ⟨rest, equal⟩
    have tail : kind ++ ':' :: rest = last := by
      simpa [area] using equal
    exact part (tail ▸ List.mem_append_right _ List.mem_cons_self)
  rintro (inChannels | inSockets)
  · exact absurdArea _ inChannels
  · exact absurdArea _ inSockets

theorem ne_presenceKey_of_ownArea {key : Text} (own : OwnArea config key) :
    key ≠ presenceKey config.fServiceName config.fId := by
  rintro rfl
  rw [presenceKey_split] at own
  exact not_ownArea_of_part (by decide) own

theorem ne_healthKey_of_ownArea {key : Text} (own : OwnArea config key) :
    key ≠ healthKey config.fServiceName config.fId := by
  rintro rfl
  rw [healthKey_split] at own
  exact not_ownArea_of_part (by decide) own

theorem healthKey_ne_presenceKey (service instanceId service' instanceId' : Text) :
    healthKey service instanceId ≠ presenceKey service' instanceId' := by
  intro equal
  rw [healthKey_split, presenceKey_split] at equal
  exact absurd (Text.append_separator_inj_last (by decide) (by decide) equal).2 (by decide)

/-! ## What an instance keeps -/

/-- What holds of an instance at any time. It has a topology and a host only while it is
there, and no presence when it is not. -/
structure Standing (links : List LinkKey) (instances : ι → TopologyConfig) (full : Db)
    (config : TopologyConfig) (later : Db) (member : Member) : Prop where
  sound : Sound links config full later member.party
  presents : Presents links instances full config later member.party
  resting : member.stay.Runs ∨ member.party.phase = .idle
  hosted : member.stay.Runs →
    (hget later (healthKey config.fServiceName config.fId) "hostIp".toList).isSome
  gone : member.stay = .absent → presenceKey config.fServiceName config.fId ∉ later ∧
    healthKey config.fServiceName config.fId ∉ later

/-- What others write does not matter. -/
theorem Standing.congr {db : Db} {member : Member}
    (standing : Standing links instances full config db member)
    (same : ∀ key, instanceKey config.fServiceName config.fId ++ [':'] <+: key →
      later.lookup key = db.lookup key) : Standing links instances full config later member := by
  have sameHealth := same (healthKey config.fServiceName config.fId)
    (instanceKey_of_touches (Or.inr (Or.inr rfl)))
  have samePresence := same (presenceKey config.fServiceName config.fId)
    (instanceKey_of_touches (Or.inr (Or.inl rfl)))
  constructor
  · exact standing.sound.congr fun key own => same key (instanceKey_of_ownArea own)
  · exact standing.presents.congr fun key own => same key (instanceKey_of_ownArea own)
  · exact standing.resting
  · intro runs
    rw [hget_congr sameHealth]
    exact standing.hosted runs
  · intro absent
    rw [mem_of_lookup_eq samePresence, mem_of_lookup_eq sameHealth]
    exact standing.gone absent

namespace Ready

variable (ready : Ready links instances full) {i : ι} {member : Member}

include ready

/-- A step changes the keys of its instance only. -/
theorem lookup_moves (surrounds : Surrounds links full later)
    (sound : Sound links (instances i) full later member.party) {action : MemberAction}
    {result : Db × Member} (moves : member.Moves later action result) {key : Text}
    (untouched : ¬ Touches (instances i) key) : result.1.lookup key = later.lookup key := by
  rcases sound.sameKeys with ⟨sameService, sameId, -⟩
  have notPresence :
      key ≠ presenceKey member.party.config.fServiceName member.party.config.fId := by
    rw [sameService, sameId]
    exact fun same => untouched (Or.inr (Or.inl same))
  have notHealth : key ≠ healthKey member.party.config.fServiceName member.party.config.fId := by
    rw [sameService, sameId]
    exact fun same => untouched (Or.inr (Or.inr same))
  have notWritten : ¬ Writes (instances i) key := fun writes => untouched (Or.inl writes)
  cases moves with
  | setId => exact lookup_set_of_ne later notPresence _
  | register => exact lookup_hset_of_ne later notHealth _
  | cycle here makes acts =>
      exact (ready.sound_step surrounds.sameTopology sound acts).2 key notWritten
  | crash => rfl
  | reset => exact (ready.sound_reset sound).2 key notWritten
  | unregister =>
      rw [lookup_del, if_neg]
      simp [notPresence, notHealth]

/-- It leaves the keys of the other instances as they are. -/
theorem lookup_other (surrounds : Surrounds links full later)
    (sound : Sound links (instances i) full later member.party) {action : MemberAction}
    {result : Db × Member} (moves : member.Moves later action result) {j : ι} (differs : j ≠ i)
    {key : Text}
    (under : instanceKey (instances j).fServiceName (instances j).fId ++ [':'] <+: key) :
    result.1.lookup key = later.lookup key := by
  apply ready.lookup_moves surrounds sound moves
  intro touches
  rcases unique_of_instanceKey (ready.name j) (ready.name i) under
    (instanceKey_of_touches touches) with ⟨sameService, sameId⟩
  exact differs (ready.distinct j i sameService sameId)

/-- An instance that starts again is as it was in the beginning. -/
theorem renew_eq (sound : Sound links (instances i) full later member.party) :
    member.party.config.renew = instances i := by
  have noBind := ready.noBind i
  have noConnect := ready.noConnect i
  have noLinks := ready.noLinks i
  have noKeys := ready.noKeys i
  rcases sound.identity with ⟨bind, connect, fLinks, keys, equal⟩
  rw [equal, renew]
  cases same : instances i
  simp only [same] at noBind noConnect noLinks noKeys
  simp only [noBind, noConnect, noLinks, noKeys]

/-- An instance that starts finds at most hashes of its channels. -/
theorem sound_new (marks : ∀ key ∈ later, OwnArea (instances i) key → ∃ channel,
      ChannelName channel ∧
        key = instanceChannelKey (instances i).fServiceName (instances i).fId channel) :
    Sound links (instances i) full later { config := instances i } := by
  have noChannel (name : Text) (sp : SocketProperty) :
      ¬ ((instances i).fBindChannels.lookup name = some sp ∨
        (instances i).fConnectChannels.lookup name = some sp) := by
    simp [ready.noBind i, ready.noConnect i]
  constructor
  · exact ⟨_, _, _, _, rfl⟩
  · intro name lp found
    rw [ready.noLinks i] at found
    cases found
  · exact fun _ => rfl
  · exact fun _ => rfl
  · exact ⟨fun name sp found => absurd (Or.inl found) (noChannel name sp),
      fun name sp found => absurd (Or.inr found) (noChannel name sp)⟩
  · exact fun name sp found => absurd found (noChannel name sp)
  · intro key registered
    rw [ready.noKeys i] at registered
    cases registered
  · exact fun key stored own => Or.inr (marks key stored own)

/-- It presents nothing yet. -/
theorem presents_new (marks : ∀ key ∈ later, OwnArea (instances i) key → ∃ channel,
      ChannelName channel ∧
        key = instanceChannelKey (instances i).fServiceName (instances i).fId channel)
    (hash : ∀ channel, ChannelName channel → ∃ sp : SocketProperty, sp.numSockets = 0 ∧
      HashOf later (instanceChannelKey (instances i).fServiceName (instances i).fId channel) sp) :
    Presents links instances full (instances i) later { config := instances i } := by
  have unlisted (channel : Text) :
      instancePeerKey (instances i).fServiceName (instances i).fId channel ∉ later := by
    intro stored
    rcases marks _ stored (Or.inl (area_prefix_instancePeerKey _ _ _)) with ⟨other, name, equal⟩
    exact instancePeerKey_ne_instanceChannelKey name.name.part _ _ _ equal
  have lists (channel : Text) : peerList later (instances i) channel = [] := by
    rw [peerList, lrange, AList.lookup_eq_none.mpr (unlisted channel)]
  have noChannel (name : Text) (sp : SocketProperty) :
      ¬ ((instances i).fBindChannels.lookup name = some sp ∨
        (instances i).fConnectChannels.lookup name = some sp) := by
    simp [ready.noBind i, ready.noConnect i]
  constructor
  · intro channel name peer inList
    rw [lists] at inList
    cases inList
  · intro channel name
    rcases hash channel name with ⟨sp, none, isHash⟩
    rw [lists]
    exact ⟨sp, none, isHash⟩
  · exact fun channel name stored => absurd stored (unlisted channel)
  · exact fun channel sp found => absurd found (noChannel channel sp)
  · exact fun channel sp found => absurd (Or.inr found) (noChannel channel sp)
  · exact fun busy => absurd rfl busy
  · intro _ key stored inSockets
    rcases marks key stored (Or.inr inSockets) with ⟨channel, -, rfl⟩
    exact not_area_socket (area_prefix_instanceChannelKey _ _ _) inSockets
  · intro written
    cases written

/-- Nothing is registered in the state `Idle`, so that what is there are marks. -/
theorem marks_of_idle {party : Party} (sound : Sound links (instances i) full later party)
    (idle : party.phase = .idle) : ∀ key ∈ later, OwnArea (instances i) key → ∃ channel,
      ChannelName channel ∧
        key = instanceChannelKey (instances i).fServiceName (instances i).fId channel := by
  intro key stored own
  apply (sound.registered key stored own).resolve_left
  rw [sound.idle idle, knowing, ready.noKeys i]
  exact List.not_mem_nil

/-- An instance that has left starts again as a new one. -/
theorem standing_unregister (standing : Standing links instances full (instances i) later member)
    (closing : member.stay = .closing) :
    Standing links instances full (instances i)
      (del later [presenceKey member.party.config.fServiceName member.party.config.fId,
        healthKey member.party.config.fServiceName member.party.config.fId])
      ⟨{ config := member.party.config.renew }, .absent⟩ := by
  rcases standing.sound.sameKeys with ⟨sameService, sameId, -⟩
  have idle : member.party.phase = .idle := by
    apply standing.resting.resolve_left
    rw [closing]
    exact id
  rw [sameService, sameId, ready.renew_eq standing.sound]
  generalize registry : del later _ = after
  have same {key : Text} (own : OwnArea (instances i) key) :
      after.lookup key = later.lookup key := by
    rw [← registry, lookup_del, if_neg]
    simp [ne_presenceKey_of_ownArea own, ne_healthKey_of_ownArea own]
  have before := ready.marks_of_idle standing.sound idle
  have marks : ∀ key ∈ after, OwnArea (instances i) key → ∃ channel, ChannelName channel ∧
      key = instanceChannelKey (instances i).fServiceName (instances i).fId channel :=
    fun key stored own => before key ((mem_of_lookup_eq (same own)).mp stored) own
  constructor
  · exact ready.sound_new marks
  · apply ready.presents_new marks
    intro channel name
    rcases standing.presents.hash channel name with ⟨sp, counted, hash⟩
    have unlisted : instancePeerKey (instances i).fServiceName (instances i).fId channel ∉
        later := by
      intro stored
      rcases before _ stored (Or.inl (area_prefix_instancePeerKey _ _ _)) with ⟨other, name, equal⟩
      exact instancePeerKey_ne_instanceChannelKey name.name.part _ _ _ equal
    refine ⟨sp, ?_, hash.congr (same (Or.inl (area_prefix_instanceChannelKey _ _ _)))⟩
    rw [counted, peerList, lrange, AList.lookup_eq_none.mpr unlisted]
    rfl
  · exact Or.inr rfl
  · exact False.elim
  · intro _
    rw [← registry, mem_del, mem_del]
    simp

/-- Every step of an instance keeps what holds of it. -/
theorem standing_moves (endpoints : LinksEndpoints links full AutoSubChannel)
    (surrounds : Surrounds links full later)
    (standing : Standing links instances full (instances i) later member) {action : MemberAction}
    {result : Db × Member} (moves : member.Moves later action result) :
    Standing links instances full (instances i) result.1 result.2 := by
  have sound := standing.sound
  rcases sound.sameKeys with ⟨sameService, sameId, -⟩
  have here_hosted (here : member.stay = .here) := standing.hosted (here ▸ trivial)
  cases moves with
  | setId absent fUuid =>
      rw [sameService, sameId]
      have same {key : Text} (own : OwnArea (instances i) key) :=
        @lookup_set_of_ne later _ _ (ne_presenceKey_of_ownArea own) fUuid
      constructor
      · exact sound.congr fun key own => same own
      · exact standing.presents.congr fun key own => same own
      · right
        apply standing.resting.resolve_left
        rw [absent]
        exact id
      · exact False.elim
      · intro stays
        cases stays
  | register present health hostIp =>
      rw [sameService, sameId]
      have same {key : Text} (own : OwnArea (instances i) key) :=
        @lookup_hset_of_ne later _ _ (ne_healthKey_of_ownArea own) health
      constructor
      · exact sound.congr fun key own => same own
      · exact standing.presents.congr fun key own => same own
      · exact Or.inl trivial
      · exact fun _ => (isSome_hget_hset later health).mpr (Or.inl hostIp)
      · intro stays
        cases stays
  | cycle here makes acts =>
      rcases ready.sound_step surrounds.sameTopology sound acts with ⟨soundNow, frame⟩
      constructor
      · exact soundNow
      · exact ready.presents_step endpoints surrounds sound standing.presents makes acts
      · exact Or.inl (here ▸ trivial)
      · intro _
        rw [hget_congr (frame _ fun writes => ne_healthKey_of_ownArea writes.2 rfl)]
        exact here_hosted here
      · intro absent
        exact absurd (here.symm.trans absent) (by decide)
  | crash here waited failed =>
      exact ⟨sound, standing.presents, Or.inl trivial, fun _ => here_hosted here,
        fun absent => by cases absent⟩
  | reset here =>
      rcases ready.sound_reset sound with ⟨soundNow, -⟩
      constructor
      · exact soundNow
      · exact presents_reset sound standing.presents
      · exact Or.inr rfl
      · exact False.elim
      · intro absent
        cases absent
  | unregister closing => exact ready.standing_unregister standing closing

end Ready

/-! ## All instances -/

/-- The network before any instance has come. `full` is the registry in which all of them
are present: it says which topology is declared, and which instances belong to it. -/
structure Opening (links : List LinkKey) (instances : ι → TopologyConfig) (full start : Db) : Prop
    extends Ready links instances full where
  counts : LinksEndpoints links full AutoSubChannel
  declared : SameTopology full start
  noPresence : ∀ service instanceId, presenceKey service instanceId ∉ start
  noHealth : ∀ i, healthKey (instances i).fServiceName (instances i).fId ∉ start
  empty : ∀ i, ∀ key ∈ start, ¬ OwnArea (instances i) key

/-- No instance is there. -/
def beforeArrival (instances : ι → TopologyConfig) (start : Db) : Network ι Db Member :=
  ⟨start, fun i => { party := { config := instances i } }⟩

/-- The peer is a bind channel of an instance that has published its sub-sockets, one of
which is for the channel `me`. -/
def Answers (instances : ι → TopologyConfig) (network : Network ι Db Member) (me peer : Text) :
    Prop :=
  ∃ j, ∃ channel ∈ (network.party j).party.config.fBindChannels.keys,
    peer = instanceChannelKey (instances j).fServiceName (instances j).fId channel ∧
      Serves me (peerList network.shared (instances j) channel)
        (network.party j).party.phase.written

/-- Whatever instance resolves addresses, all peers of its channels answer. -/
def Answered (instances : ι → TopologyConfig) (network : Network ι Db Member) :
    ι × MemberAction → Prop
  | (i, .cycle .resolveConnectAddress) =>
      (network.party i).stay = .here → (network.party i).party.phase = .waited →
        ∀ channel ∈ (network.party i).party.config.fConnectChannels.keys,
          ∀ peer ∈ peerList network.shared (instances i) channel, Answers instances network
            (instanceChannelKey (instances i).fServiceName (instances i).fId channel) peer
  | _ => True

/-- The process has ended by a fault. -/
def Stay.Crashed : Stay → Prop
  | crashed _ => True
  | _ => False

/-- No process has crashed. -/
def Safe (network : Network ι Db Member) : Prop :=
  ∀ i, ¬ (network.party i).stay.Crashed

/-- All crashes are by an address that is not there. -/
def CrashesByAddress (network : Network ι Db Member) : Prop :=
  ∀ i fault, (network.party i).stay = .crashed fault → fault = .index ∨ fault = .assertion

/-- Whoever has published sub-sockets has its host in the registry. -/
def Hosted (instances : ι → TopologyConfig) (network : Network ι Db Member) : Prop :=
  ∀ i, (network.party i).party.phase.written = true →
    (hget network.shared (healthKey (instances i).fServiceName (instances i).fId)
      "hostIp".toList).isSome

/-- What an instance that is not there has left are hashes of its channels. -/
def LeavesMarks (instances : ι → TopologyConfig) (network : Network ι Db Member) : Prop :=
  ∀ i, (network.party i).stay = .absent → ∀ key ∈ network.shared, Touches (instances i) key →
    ∃ channel, ChannelName channel ∧
      key = instanceChannelKey (instances i).fServiceName (instances i).fId channel

instance : DecidablePred Stay.Crashed
  | .crashed _ => .isTrue trivial
  | .absent | .present | .here | .closing => .isFalse id

instance [Fintype ι] : DecidablePred (@Safe ι) :=
  fun network => inferInstanceAs (Decidable (∀ i, ¬ (network.party i).stay.Crashed))

instance [Fintype ι] (network : Network ι Db Member) (me peer : Text) :
    Decidable (Answers instances network me peer) :=
  inferInstanceAs (Decidable (∃ _, ∃ channel ∈ _, _ ∧ _))

instance [Fintype ι] (network : Network ι Db Member) :
    ∀ action, Decidable (Answered instances network action)
  | (_, .cycle .resolveConnectAddress) => inferInstanceAs (Decidable (_ → _ → ∀ channel ∈ _, _))
  | (_, .cycle .initializeTopology) | (_, .cycle (.writeBindAddress _))
  | (_, .cycle .waitBindAddress) | (_, .cycle (.writeConnectAddress _)) | (_, .cycle .reset)
  | (_, .setId _) | (_, .register _) | (_, .reset) | (_, .unregister) => .isTrue trivial

/-- The invariant: the registry holds what each instance presents. -/
structure Attends (links : List LinkKey) (instances : ι → TopologyConfig) (full : Db)
    (network : Network ι Db Member) : Prop where
  surrounds : Surrounds links full network.shared
  standing : ∀ i, Standing links instances full (instances i) network.shared (network.party i)
  faults : CrashesByAddress network

theorem Opening.attends (opening : Opening links instances full start) :
    Attends links instances full (beforeArrival instances start) := by
  have unmarked (i : ι) : ∀ key ∈ start, OwnArea (instances i) key → ∃ channel,
      ChannelName channel ∧
        key = instanceChannelKey (instances i).fServiceName (instances i).fId channel :=
    fun key stored own => absurd own (opening.empty i key stored)
  constructor
  · exact ⟨opening.declared, fun service _ instanceId stored =>
      absurd stored (opening.noPresence service instanceId)⟩
  · intro i
    constructor
    · exact opening.sound_new (unmarked i)
    · apply opening.presents_new (unmarked i)
      intro channel name
      refine ⟨{}, rfl, HashOf.of_notMem ?_ rfl⟩
      exact fun stored => opening.empty i _ stored (Or.inl (area_prefix_instanceChannelKey _ _ _))
    · exact Or.inr rfl
    · exact False.elim
    · exact fun _ => ⟨opening.noPresence _ _, opening.noHealth i⟩
  · intro i fault crashed
    cases crashed

namespace Attends

variable {network : Network ι Db Member}
  (attends : Attends links instances full network) (ready : Ready links instances full)

include attends

theorem hosted : Hosted instances network := by
  intro i written
  have standing := attends.standing i
  exact standing.hosted (standing.resting.resolve_right (Phase.ne_idle_of_written written))

include ready

/-- What a link joins a connect channel to is a bind channel. -/
theorem bind_of_joins (counts : LinksEndpoints links full AutoSubChannel) {i j : ι}
    {channel far : Text} {sp : SocketProperty}
    (found : (network.party i).party.config.fConnectChannels.lookup channel = some sp)
    {link : LinkKey} (inLinks : link ∈ links)
    (joins : link.Joins ((instances i).fServiceName, channel) ((instances j).fServiceName, far)) :
    ChannelName far ∧ ((network.party j).party.phase ≠ .idle →
      far ∈ (network.party j).party.config.fBindChannels) := by
  have sound := (attends.standing i).sound
  rcases sound.ofEndpoint channel sp (Or.inr found) with ⟨-, base, declares, method⟩
  have isConnect := method.trans (sound.sorted.connect channel sp found)
  rcases (counts.far_of_connect inLinks joins declares isConnect).2 with
    ⟨bindBase, bindDeclares, isBind, -⟩
  exact ⟨ready.channelName j bindDeclares.stored, fun busy =>
    (attends.standing j).presents.complete busy far bindBase bindDeclares isBind⟩

/-- What the registry shows of a peer of a connect channel. -/
theorem shows_peer (counts : LinksEndpoints links full AutoSubChannel) {i : ι} {channel : Text}
    {sp : SocketProperty}
    (found : (network.party i).party.config.fConnectChannels.lookup channel = some sp)
    {peer : Text} (listed : peer ∈ peerList network.shared (instances i) channel) (me : Text) :
    ∃ neighbors published,
      Shows (network.party i).party.config network.shared peer neighbors published ∧
        (Serves me neighbors published ↔ Answers instances network me peer) := by
  have sound := (attends.standing i).sound
  rcases sound.sameKeys with ⟨-, -, standard⟩
  have standard := standard (ready.standard i)
  rcases ready.channelName_of_lookup sound (Or.inr found) with ⟨name, -⟩
  rcases (attends.standing i).presents.peers channel name peer listed with
    ⟨link, inLinks, ⟨service, far⟩, joins, j, sameService, rfl⟩
  obtain rfl : (instances j).fServiceName = service := sameService
  rcases attends.bind_of_joins ready counts found inLinks joins with ⟨farName, known⟩
  have standing := attends.standing j
  have presents := standing.presents
  have busy := @Phase.ne_idle_of_written (network.party j).party.phase
  refine ⟨peerList network.shared (instances j) far, (network.party j).party.phase.written,
    ?_, ?_⟩
  · constructor
    · rw [peerListKey_instanceChannelKey standard, peerList]
    · rcases presents.hash far farName with ⟨property, counted, hash⟩
      rcases hash.exists_read (by omega) with ⟨read, isRead, sockets⟩
      exact ⟨read, isRead, sockets.trans counted⟩
    · cases written : (network.party j).party.phase.written with
      | false =>
          refine ⟨[], peerAddress_of_none standard (ready.name j) farName.name ?_, rfl⟩
          intro key stored isPrefix
          exact presents.unpublished written key stored (socketKeyPrefix_area.trans isPrefix)
      | true =>
          have published := presents.published written far (known (busy written))
            ⟨link, inLinks, _, joins.symm⟩
          exact exists_peerAddress standard (ready.name j) farName.name
            (attends.hosted j written) published.keys published.address
  · constructor
    · intro serves
      exact ⟨j, far, AList.mem_keys.mp (known (busy serves.1)), rfl, serves⟩
    · rintro ⟨k, other, isBindChannel, same, serves⟩
      have otherName := ready.channelName_of_mem (attends.standing k).sound
        (AList.mem_keys.mpr isBindChannel)
      rcases instanceChannelKey_injective (ready.name j).serviceName.part
        (ready.name k).serviceName.part farName.name.part otherName.name.part same with
        ⟨sameService, sameId, rfl⟩
      cases ready.distinct j k sameService sameId
      exact serves

/-- A resolution comes through exactly if all peers answer. -/
theorem resolve_endsBy (counts : LinksEndpoints links full AutoSubChannel) (i : ι) :
    EndsBy (∀ channel ∈ (network.party i).party.config.fConnectChannels.keys,
        ∀ peer ∈ peerList network.shared (instances i) channel, Answers instances network
          (instanceChannelKey (instances i).fServiceName (instances i).fId channel) peer)
      ((network.party i).party.config.resolveConnectAddress network.shared) := by
  have sound := (attends.standing i).sound
  have presents := (attends.standing i).presents
  rcases sound.sameKeys with ⟨sameService, sameId, standard⟩
  have standard := standard (ready.standard i)
  have linked {channel : Text} {sp : SocketProperty}
      (found : (network.party i).party.config.fConnectChannels.lookup channel = some sp)
      {peer : Text} (listed : peer ∈ peerList network.shared (instances i) channel) :
      Linked links (instances i).fServiceName channel := by
    rcases ready.channelName_of_lookup sound (Or.inr found) with ⟨name, -⟩
    rcases presents.peers channel name peer listed with ⟨link, inLinks, far, joins, -⟩
    exact ⟨link, inLinks, far, joins⟩
  apply (@resolveConnectAddress_endsBy (network.party i).party.config network.shared
    (fun sp => ∀ peer ∈ peerList network.shared (instances i) sp.name, Answers instances network
      (instanceChannelKey (instances i).fServiceName (instances i).fId sp.name) peer) _).congr
  · constructor
    · intro served channel isConnect peer listed
      rcases Option.isSome_iff_exists.mp (AList.lookup_isSome.mpr (AList.mem_keys.mpr isConnect))
        with ⟨sp, found⟩
      rcases ready.channelName_of_lookup sound (Or.inr found) with ⟨-, rfl⟩
      exact served sp.name sp found
        (presents.unaddressed sp.name sp found (linked found listed)) peer listed
    · intro served channel sp found _
      rcases ready.channelName_of_lookup sound (Or.inr found) with ⟨-, rfl⟩
      apply served sp.name
      exact AList.mem_keys.mp (AList.lookup_isSome.mp (found ▸ rfl))
  · intro channel sp found _
    rcases ready.channelName_of_lookup sound (Or.inr found) with ⟨-, rfl⟩
    rw [resolveChannel, channelKey_eq standard, peerListKey_instanceChannelKey standard,
      sameService, sameId]
    cases peers : peerList network.shared (instances i) sp.name with
    | nil =>
        rw [show lrange network.shared _ = [] from peers]
        intro peer listed
        cases listed
    | cons first rest =>
        have isLinked := linked found (peers ▸ List.mem_cons_self)
        have shows_ := fun peer listed => attends.shows_peer ready counts found
          (peers ▸ listed : peer ∈ peerList network.shared (instances i) sp.name)
          (instanceChannelKey (instances i).fServiceName (instances i).fId sp.name)
        choose! neighbors published shown answers using shows_
        rw [show lrange network.shared _ = first :: rest from peers]
        apply (resolvePeers_endsBy _ shown).congr
        · exact forall₂_congr answers
        · rw [presents.counted sp.name sp (Or.inr found) isLinked, peers]

/-- A step crashes its process exactly if it takes an address of a peer that does not
answer. -/
theorem crashed_iff (counts : LinksEndpoints links full AutoSubChannel) {i : ι}
    {action : MemberAction} {result : Db × Member}
    (stepped : Member.step (network.shared, network.party i) action = some result) :
    (result.2.stay.Crashed ↔ ¬ Answered instances network (i, action)) ∧
      ∀ fault, result.2.stay = .crashed fault → fault = .index ∨ fault = .assertion := by
  have moves := Member.moves_of_step stepped
  by_cases resolves : action = .cycle .resolveConnectAddress ∧ (network.party i).stay = .here ∧
      (network.party i).party.phase = .waited
  · rcases resolves with ⟨rfl, here, waited⟩
    have ends := attends.resolve_endsBy ready counts i
    rw [Member.step_resolveConnectAddress here waited] at stepped
    cases outcome : (network.party i).party.config.resolveConnectAddress network.shared with
    | ok resolved =>
        rw [outcome] at ends stepped
        cases stepped
        simp only [here]
        exact ⟨iff_of_false id (not_not.mpr fun _ _ => ends), fun fault crashed => by cases crashed⟩
    | error fault =>
        rw [outcome] at ends stepped
        rcases ends with ⟨unserved, isFault⟩
        have crashed : result.2.stay = .crashed fault := by
          rcases isFault with rfl | rfl <;>
          · cases stepped
            rfl
        rw [crashed]
        constructor
        · exact iff_of_true trivial fun answered => unserved (answered here waited)
        · rintro other ⟨⟩
          exact isFault
  · have alive : ¬ result.2.stay.Crashed := by
      cases moves with
      | setId | register | reset | unregister => exact id
      | cycle here => exact fun crashed => absurd (here ▸ crashed : Stay.here.Crashed) id
      | crash here waited => exact absurd ⟨rfl, here, waited⟩ resolves
    constructor
    · apply iff_of_false alive
      rw [not_not]
      unfold Answered
      split
      · rename_i equal
        cases equal
        exact fun here waited => absurd ⟨rfl, here, waited⟩ resolves
      · trivial
    · intro fault crashed
      exact absurd (crashed ▸ trivial) alive

end Attends

section Run

variable [DecidableEq ι] {network next : Network ι Db Member}

/-- Every step keeps the invariant. -/
theorem Attends.step (attends : Attends links instances full network)
    (ready : Ready links instances full) (counts : LinksEndpoints links full AutoSubChannel)
    {action : ι × MemberAction}
    (stepped : Network.step Member.step network action = some next) :
    Attends links instances full next := by
  rcases action with ⟨i, action⟩
  rcases Option.map_eq_some_iff.mp stepped with ⟨result, acted, rfl⟩
  have moves := Member.moves_of_step acted
  have frame {key : Text} := @Ready.lookup_moves _ _ _ _ _ ready i _ attends.surrounds
    (attends.standing i).sound _ _ moves key
  constructor
  · constructor
    · intro rest
      rw [Network.acted_shared, frame, attends.surrounds.sameTopology rest]
      intro touches
      rcases instanceKey_of_touches touches with ⟨tail, equal⟩
      have parts : (instances i).fServiceName ++ ':' :: ((instances i).fId ++ ':' :: tail) =
          topologyPrefix ++ ':' :: rest := by
        simpa [instanceKey_eq] using equal
      exact ready.unreservedService i (Text.append_separator_inj
        (ready.name i).serviceName.part (by decide) parts).1
    · intro service isEnd instanceId stored
      by_cases touches : Touches (instances i) (presenceKey service instanceId)
      · rcases touches with ⟨inRegion, -⟩ | isPresence | isHealth
        · exact absurd inRegion (not_region_presenceKey _ _)
        · have parts : service ++ ':' :: (instanceId ++ ':' :: presencePrefix) =
              (instances i).fServiceName ++ ':' ::
                ((instances i).fId ++ ':' :: presencePrefix) := by
            simpa [presenceKey_eq] using isPresence
          have part : Part service := by
            rcases isEnd with ⟨link, inLinks, rfl | rfl⟩
            · exact (ready.declares.wellFormed link inLinks).serviceNameL.part
            · exact (ready.declares.wellFormed link inLinks).serviceNameR.part
          rcases Text.append_separator_inj part (ready.name i).serviceName.part parts with
            ⟨sameService, sameId⟩
          exact (ready.present service isEnd instanceId).mpr
            ⟨i, sameService.symm, (List.append_cancel_right sameId).symm⟩
        · exact absurd isHealth.symm (healthKey_ne_presenceKey _ _ _ _)
      · apply attends.surrounds.present service isEnd
        exact (mem_of_lookup_eq (frame touches)).mp stored
  · intro j
    by_cases same : j = i
    · subst same
      rw [Network.acted_shared, Network.acted_party_self]
      exact ready.standing_moves counts attends.surrounds (attends.standing j) moves
    · rw [Network.acted_shared, Network.acted_party_of_ne _ same]
      apply (attends.standing j).congr
      intro key under
      exact ready.lookup_other attends.surrounds (attends.standing i).sound moves same under
  · intro j fault crashed
    by_cases same : j = i
    · subst same
      rw [Network.acted_party_self] at crashed
      exact (attends.crashed_iff ready counts acted).2 fault crashed
    · rw [Network.acted_party_of_ne _ same] at crashed
      exact attends.faults j fault crashed

/-- A step keeps all processes alive exactly if whoever resolves addresses is answered. -/
theorem Attends.safe_iff (attends : Attends links instances full network)
    (ready : Ready links instances full) (counts : LinksEndpoints links full AutoSubChannel)
    (safe : Safe network) {action : ι × MemberAction}
    (stepped : Network.step Member.step network action = some next) :
    Safe next ↔ Answered instances network action := by
  rcases action with ⟨i, action⟩
  rcases Option.map_eq_some_iff.mp stepped with ⟨result, acted, rfl⟩
  rw [← not_iff_not, ← (attends.crashed_iff ready counts acted).1]
  constructor
  · intro unsafe_
    by_contra alive
    apply unsafe_
    intro j
    by_cases same : j = i
    · subst same
      rw [Network.acted_party_self]
      exact alive
    · rw [Network.acted_party_of_ne _ same]
      exact safe j
  · intro crashed safeNext
    have alive := safeNext i
    rw [Network.acted_party_self] at alive
    exact alive crashed

/-- In every interleaving no process crashes exactly if whoever resolves addresses is
answered by all of its peers. -/
theorem always_safe_iff (opening : Opening links instances full start)
    (actions : List (ι × MemberAction)) :
    Always (Network.step Member.step) Safe (beforeArrival instances start) actions ↔
      Meets (Network.step Member.step) (Answered instances) (beforeArrival instances start)
        actions := by
  apply @always_iff_meets _ _ _ _ (Attends links instances full)
  · intro network action next attends _ stepped
    exact attends.step opening.toReady opening.counts stepped
  · intro network action next attends safe stepped
    exact attends.safe_iff opening.toReady opening.counts safe stepped
  · rintro network ⟨i, action⟩ refused
    unfold Answered
    split
    · rename_i equal
      cases equal
      intro here waited
      rw [Network.step, Member.step_resolveConnectAddress here waited] at refused
      cases outcome : (network.party i).party.config.resolveConnectAddress network.shared with
      | ok resolved =>
          rw [outcome] at refused
          cases refused
      | error fault =>
          rw [outcome] at refused
          cases fault <;> cases refused
    · trivial
  · exact opening.attends
  · exact fun i => id

/-- In every interleaving, what a process crashes by is an address that is not there, and
not the host of a peer. -/
theorem always_crashesByAddress (opening : Opening links instances full start)
    (actions : List (ι × MemberAction)) :
    Always (Network.step Member.step)
      (fun network => CrashesByAddress network ∧ Hosted instances network)
      (beforeArrival instances start) actions := by
  apply @always_of_invariant _ _ _ (fun _ _ => True) (Attends links instances full)
  · exact fun attends _ stepped => attends.step opening.toReady opening.counts stepped
  · exact fun attends => ⟨attends.faults, attends.hosted⟩
  · exact opening.attends
  · exact meets_of_forall (fun _ _ => trivial) _ _

/-- In every interleaving, what an instance leaves are marks at its channels. -/
theorem always_leavesMarks (opening : Opening links instances full start)
    (actions : List (ι × MemberAction)) :
    Always (Network.step Member.step) (LeavesMarks instances) (beforeArrival instances start)
      actions := by
  apply @always_of_invariant _ _ _ (fun _ _ => True) (Attends links instances full)
  · exact fun attends _ stepped => attends.step opening.toReady opening.counts stepped
  · intro network attends i absent key stored touches
    have standing := attends.standing i
    rcases touches with ⟨-, own⟩ | rfl | rfl
    · apply opening.marks_of_idle standing.sound (standing.resting.resolve_left _) key stored own
      rw [absent]
      exact id
    · exact absurd stored (standing.gone absent).1
    · exact absurd stored (standing.gone absent).2
  · exact opening.attends
  · exact meets_of_forall (fun _ _ => trivial) _ _

end Run

/-! ### A source that leaves a mark -/

/-- A registry with the endpoints of a source and a sink that count their peers, and
their link. -/
def countedRegistry : Db :=
  let link := knotLink .none
  let bindEnd := hset ∅ (serviceEndpointKey link.serviceL link.channelL)
    [(Field.text .method, "bind".toList), (Field.text .autoSubChannel, ['1'])]
  let ends := hset bindEnd (serviceEndpointKey link.serviceR link.channelR)
    [(Field.text .method, "connect".toList), (Field.text .autoSubChannel, ['1'])]
  set ends link.key []

/-- The registry with both of them. -/
def crowdedRegistry : Db :=
  set (set countedRegistry (presenceKey "Src".toList "Src-0".toList) [])
    (presenceKey "Snk".toList "Snk-0".toList) []

/-- One of the two comes. -/
def arrive (i : Bool) : List (Bool × MemberAction) :=
  [(i, .setId []), (i, .register [("hostIp".toList, "10.0.0.1".toList)])]

/-- The source publishes its socket. -/
def publish : List (Bool × MemberAction) :=
  [(false, .cycle .initializeTopology), (false, .cycle (.writeBindAddress (boundTo "5001".toList)))]

/-- The sink takes the address of the source. -/
def resolve : List (Bool × MemberAction) :=
  [(true, .cycle .initializeTopology), (true, .cycle (.writeBindAddress ∅)),
    (true, .cycle .waitBindAddress), (true, .cycle .resolveConnectAddress)]

/-- Both come before anything else. -/
def together : List (Bool × MemberAction) :=
  arrive false ++ arrive true ++ publish ++ resolve

/-- The source publishes its socket before the sink comes, leaves and comes again. The
sink takes the mark that it has left for one of its present cycle. -/
def misled : List (Bool × MemberAction) :=
  arrive false ++ publish ++ [(false, .reset), (false, .unregister)] ++ arrive false ++
    arrive true ++ resolve

theorem counted_opening :
    Opening [knotLink .none] (knot .none) crowdedRegistry countedRegistry := by
  have counts : LinksEndpoints [knotLink .none] crowdedRegistry AutoSubChannel := by
    intro link member
    cases List.mem_singleton.mp member
    have bindKind : AutoSubChannel { method := "bind".toList, autoSubChannel := true } :=
      ⟨rfl, rfl, rfl⟩
    have connectKind : AutoSubChannel { method := "connect".toList, autoSubChannel := true } :=
      ⟨rfl, rfl, rfl⟩
    refine ⟨_, _, _, _, Or.inl ⟨rfl, rfl⟩, ⟨⟨?_, ?_⟩, rfl, bindKind⟩, ⟨?_, ?_⟩, rfl, connectKind⟩
    all_goals decide +kernel
  have names : ∀ i, ∀ key ∈ crowdedRegistry.keys,
      serviceEndpointKey (knot .none i).fServiceName [] <+: key →
        Name (key.drop (serviceEndpointKey (knot .none i).fServiceName []).length) := by
    decide +kernel
  have readable : ∀ i, ∀ key ∈ crowdedRegistry.keys,
      serviceEndpointKey (knot .none i).fServiceName [] <+: key →
        (toSocketProperty (hgetall crowdedRegistry key)).isSome := by
    decide +kernel
  have only : ∀ i, ∀ key ∈ crowdedRegistry.keys,
      Glob.stringmatch (presenceKey (knot .none i).fServiceName ['*']) key →
        key ∈ [(knot .none i).fId].map (presenceKey (knot .none i).fServiceName) := by
    decide +kernel
  have present : ∀ i, presenceKey (knot .none i).fServiceName (knot .none i).fId ∈
      crowdedRegistry := by
    decide +kernel
  have plain : ∀ i, Glob.Plain (knot .none i).fServiceName := by decide
  have states : ∀ key ∈ crowdedRegistry.keys, ¬ ':' :: fairMQStatePrefix <:+ key := by
    decide +kernel
  rcases knot_site .none with
    ⟨standard, name, noBind, noConnect, noLinks, distinct, declares, noSelf, noPrefix, -⟩
  have site : Site [knotLink .none] (knot .none) crowdedRegistry := {
    standard := standard
    name := name
    noBind := noBind
    noConnect := noConnect
    noLinks := noLinks
    distinct := distinct
    noSelf := noSelf
    noPrefix := noPrefix
    declares := declares_of_keys declares.wellFormed (by decide +kernel)
      (by decide +kernel)
    endpoints := by
      intro link member
      rcases counts link member with ⟨bindEnd, connectEnd, bindBase, connectBase, joins,
        ⟨binds, isBind, -⟩, connects, isConnect, -⟩
      exact ⟨_, _, _, _, joins, ⟨binds, isBind, trivial⟩, connects, isConnect, trivial⟩
    names := by
      intro i channel stored
      rw [serviceEndpointKey_append] at stored
      exact name_of_keys (names i) stored
    readable := fun i channel stored => exists_declaresEndpoint_of_keys (readable i) stored
    options := by rintro (_ | _) child member <;> cases member
    present := by
      intro service isEnd instanceId
      have known : ∃ i, (knot .none i).fServiceName = service := by
        rcases isEnd with ⟨link, member, rfl | rfl⟩ <;> cases List.mem_singleton.mp member
        · exact ⟨false, rfl⟩
        · exact ⟨true, rfl⟩
      rcases known with ⟨i, rfl⟩
      constructor
      · intro member
        exact ⟨i, rfl, (List.mem_singleton.mp (instanceId_of_keys (plain i) (only i) member)).symm⟩
      · rintro ⟨j, service, rfl⟩
        rw [← service]
        exact present j
    states := by
      intro service isEnd instanceId isSome
      have stored : instanceStateKey service instanceId ∈ crowdedRegistry := by
        by_contra absent
        rw [Store.get, AList.lookup_eq_none.mpr absent] at isSome
        cases isSome
      exact absurd ⟨topPrefix ++ ':' :: (service ++ ':' :: instanceId), by
        simp [instanceStateKey, colon]⟩ (states _ (AList.mem_keys.mp stored)) }
  have unwritten : ∀ i, ∀ key ∈ crowdedRegistry.keys, ¬ OwnArea (knot .none i) key := by
    decide +kernel
  have empty : ∀ i, ∀ key ∈ countedRegistry.keys, ¬ OwnArea (knot .none i) key := by
    decide +kernel
  have noPresence : ∀ key ∈ countedRegistry.keys, ¬ ':' :: presencePrefix <:+ key := by
    decide +kernel
  constructor
  · constructor
    · exact assembly_of_site site (by decide +kernel)
    · rintro (_ | _) <;> rfl
    · rintro (_ | _) <;> rfl
    · exact fun i key stored => unwritten i key (AList.mem_keys.mp stored)
  · exact counts
  · intro rest
    have differs (service instanceId : Text) (part : Part service)
        (other : service ≠ topologyPrefix) :
        topPrefix ++ ':' :: (topologyPrefix ++ ':' :: rest) ≠ presenceKey service instanceId := by
      intro equal
      have parts : topologyPrefix ++ ':' :: rest =
          service ++ ':' :: (instanceId ++ ':' :: presencePrefix) := by
        simpa [presenceKey_eq] using equal
      exact other (Text.append_separator_inj (by decide) part parts).1.symm
    rw [crowdedRegistry, lookup_set_of_ne _ (differs _ _ (by decide) (by decide)),
      lookup_set_of_ne _ (differs _ _ (by decide) (by decide))]
  · intro service instanceId stored
    apply noPresence _ (AList.mem_keys.mp stored)
    rw [presenceKey_split]
    exact List.suffix_append _ _
  · decide +kernel
  · exact fun i key stored => empty i key (AList.mem_keys.mp stored)

/-- The sink gets the address of the source when both come first, and is killed by the
mark that the source has left. -/
theorem always_safe_together :
    Always (Network.step Member.step) Safe (beforeArrival (knot .none) countedRegistry) together ∧
      ¬ Always (Network.step Member.step) Safe (beforeArrival (knot .none) countedRegistry)
        misled :=
  ⟨(always_safe_iff counted_opening together).mpr (by decide +kernel),
    fun always => absurd ((always_safe_iff counted_opening misled).mp always) (by decide +kernel)⟩

/-- It is killed by an element that is not there. -/
theorem always_crashesByAddress_misled :
    Always (Network.step Member.step)
        (fun network => CrashesByAddress network ∧ Hosted (knot .none) network)
        (beforeArrival (knot .none) countedRegistry) misled ∧
      (Transition.run (Network.step Member.step) (beforeArrival (knot .none) countedRegistry)
          misled).map (fun network => (network.party true).stay) = some (.crashed .index) :=
  ⟨always_crashesByAddress counted_opening misled, by decide +kernel⟩

/-- The mark is what the source has left. -/
theorem always_leavesMarks_misled :
    Always (Network.step Member.step) (LeavesMarks (knot .none))
        (beforeArrival (knot .none) countedRegistry) misled ∧
      (Transition.run (Network.step Member.step) (beforeArrival (knot .none) countedRegistry)
          (arrive false ++ publish ++ [(false, .reset), (false, .unregister)])).map (fun network =>
        hget network.shared (instanceChannelKey "Src".toList "Src-0".toList "out".toList)
          (Field.text .bound)) = some (some ['1']) :=
  ⟨always_leavesMarks counted_opening misled, by decide +kernel⟩

end NestDaq.Topology
