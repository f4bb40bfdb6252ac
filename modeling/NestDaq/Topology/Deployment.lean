import NestDaq.Topology.Address
import NestDaq.Topology.Discovery

/-!
# Deployments

A set of instances that run `Initialize` one after the other, in any order, on
a registry that holds the declared topology and the presence of all of them.
What each of them leaves in the registry depends on the topology alone, since
none reads what another one wrote.
-/

namespace NestDaq.Topology

open NestDaq.Store
open NestDaq.Registry
open TopologyConfig

/-- An instance before its first `Initialize`. -/
structure Fresh (config : TopologyConfig) : Prop where
  standard : config.Standard
  name : InstanceName config.fServiceName config.fId
  noBind : config.fBindChannels = ∅
  noConnect : config.fConnectChannels = ∅
  noLinks : config.fLinks = ∅
  noOption : config.connectConfig = []

/-- A name for a channel: not one that the key space gives to a key of the instance
which is looked up by its last part. -/
structure ChannelName (channel : Text) : Prop where
  name : Name channel
  free : channel ≠ presencePrefix

/-- A service at one end of a declared link. -/
def IsEnd (links : List LinkKey) (service : Text) : Prop :=
  ∃ link ∈ links, link.serviceL = service ∨ link.serviceR = service

/-- Instances and links before the first `Initialize`: the links join different
services of which no name begins another, all instances of these services are
present, and no instance has published channels. -/
structure Setting (links : List LinkKey) (instances : List TopologyConfig) (db : Db) : Prop where
  fresh : ∀ config ∈ instances, Fresh config
  distinct : (instances.map fun config => (config.fServiceName, config.fId)).Nodup
  declares : Declares db links
  noSelf : ∀ link ∈ links, link.serviceL ≠ link.serviceR
  noPrefix : ∀ config ∈ instances, ∀ link ∈ links,
    config.fServiceName <+: link.serviceL → link.serviceL = config.fServiceName
  endpoints : ∀ config ∈ instances, ∀ channel, config.endpointKey channel ∈ db → Name channel
  present : ∀ service, IsEnd links service → ∀ instanceId, presenceKey service instanceId ∈ db ↔
    ∃ config ∈ instances, config.fServiceName = service ∧ config.fId = instanceId
  unpublished : ∀ config ∈ instances, ∀ key ∈ db,
    ¬ area config.fServiceName config.fId channelPrefix <+: key

/-- A setting whose channels do not take the last part of the presence keys, by
which the instances look each other up. -/
structure Deployment (links : List LinkKey) (instances : List TopologyConfig) (db : Db) : Prop
    extends Setting links instances db where
  unreserved : ∀ config ∈ instances, config.endpointKey presencePrefix ∉ db

/-- The peers of a channel in a deployment, whatever the registry: the sorted
channel keys of the instances at the far ends of its links. -/
structure PeersOf (links : List LinkKey) (instances : List TopologyConfig)
    (service channel : Text) (peers : List Text) : Prop where
  sorted : peers.Pairwise (· < ·)
  mem_iff : ∀ key, key ∈ peers ↔
    ∃ link ∈ links, ∃ far, link.Joins (service, channel) far ∧
      ∃ peer ∈ instances, peer.fServiceName = far.1 ∧
        key = instanceChannelKey far.1 peer.fId far.2

theorem PeersOf.unique {links : List LinkKey} {instances : List TopologyConfig}
    {service channel : Text} {first second : List Text}
    (firstPeers : PeersOf links instances service channel first)
    (secondPeers : PeersOf links instances service channel second) : first = second :=
  eq_of_pairwise_lt firstPeers.sorted secondPeers.sorted fun key =>
    (firstPeers.mem_iff key).trans (secondPeers.mem_iff key).symm

/-- A key that `WriteChannel` may write for an instance. -/
def OwnKey (config : TopologyConfig) (key : Text) : Prop :=
  ∃ channel, ChannelName channel ∧
    (key = instanceChannelKey config.fServiceName config.fId channel ∨
      key = instancePeerKey config.fServiceName config.fId channel)

namespace OwnKey

variable {config : TopologyConfig} {key : Text}

theorem area (own : OwnKey config key) :
    area config.fServiceName config.fId channelPrefix <+: key := by
  obtain ⟨channel, -, rfl | rfl⟩ := own
  · exact area_prefix_instanceChannelKey _ _ _
  · rw [instancePeerKey_eq]
    exact (area_prefix_instanceChannelKey _ _ _).trans (List.prefix_append _ _)

/-- It is not a presence key. -/
theorem ne_presenceKey (own : OwnKey config key) (service instanceId : Text) :
    key ≠ presenceKey service instanceId := by
  have presence : presenceKey service instanceId =
      (topPrefix ++ ':' :: (service ++ ':' :: instanceId)) ++ ':' :: presencePrefix := by
    simp [presenceKey_eq]
  rintro rfl
  obtain ⟨channel, name, equal | equal⟩ := own
  · have split : instanceChannelKey config.fServiceName config.fId channel =
        (instanceKey config.fServiceName config.fId ++ ':' :: channelPrefix) ++ ':' :: channel := by
      simp [instanceChannelKey_eq, instanceKey_eq]
    rw [presence, split] at equal
    exact name.free (Text.append_separator_inj_last (by decide) name.name.part equal).2.symm
  · rw [presence, instancePeerKey_eq] at equal
    exact absurd (Text.append_separator_inj_last (by decide) (by decide) equal).2 (by decide)

/-- It holds no comma, so it declares no link. -/
theorem commaFree (own : OwnKey config key) (fresh : Fresh config) : ',' ∉ key := by
  have channelFree {channel : Text} (name : ChannelName channel) :
      ',' ∉ instanceChannelKey config.fServiceName config.fId channel := by
    simp [instanceChannelKey_eq, fresh.name.serviceName.commaFree,
      fresh.name.instanceName.commaFree, name.name.commaFree,
      show ',' ∉ topPrefix by decide, show ',' ∉ channelPrefix by decide]
  obtain ⟨channel, name, rfl | rfl⟩ := own
  · exact channelFree name
  · simp [instancePeerKey_eq, channelFree name, show ',' ∉ peerPrefix by decide]

/-- It is not an endpoint of any instance. -/
theorem ne_endpointKey (own : OwnKey config key) (fresh : Fresh config)
    {other : TopologyConfig} (otherFresh : Fresh other) (channel : Text) :
    key ≠ other.endpointKey channel := by
  rintro rfl
  obtain ⟨rest, equal⟩ := own.area
  have parts : config.fServiceName ++ ':' :: (config.fId ++ ':' :: (channelPrefix ++ ':' :: rest)) =
      topologyPrefix ++ ':' ::
        (endpointPrefix ++ ':' :: (other.fServiceName ++ ':' :: channel)) := by
    simpa [Topology.area, instanceKey_eq, endpointKey, TopologyConfig.key, otherFresh.standard.top,
      otherFresh.standard.separator, colon] using equal
  obtain ⟨-, parts⟩ := Text.append_separator_inj fresh.name.serviceName.part (by decide) parts
  obtain ⟨-, parts⟩ := Text.append_separator_inj fresh.name.instanceName.part (by decide) parts
  obtain ⟨service, -⟩ :=
    Text.append_separator_inj (by decide) otherFresh.name.serviceName.part parts
  exact otherFresh.name.serviceFree (service ▸ List.prefix_refl _)

end OwnKey

/-- The areas of different instances have no key in common. -/
theorem eq_of_area {config other : TopologyConfig} (fresh : Fresh config)
    (otherFresh : Fresh other) {kind key : Text}
    (here : area config.fServiceName config.fId kind <+: key)
    (there : area other.fServiceName other.fId kind <+: key) :
    config.fServiceName = other.fServiceName ∧ config.fId = other.fId := by
  obtain ⟨rest, rfl⟩ := here
  obtain ⟨rest', equal⟩ := there
  have parts : other.fServiceName ++ ':' :: (other.fId ++ ':' :: (kind ++ ':' :: rest')) =
      config.fServiceName ++ ':' :: (config.fId ++ ':' :: (kind ++ ':' :: rest)) := by
    simpa [area, instanceKey_eq] using equal
  obtain ⟨service, parts⟩ := Text.append_separator_inj otherFresh.name.serviceName.part
    fresh.name.serviceName.part parts
  obtain ⟨instanceId, -⟩ := Text.append_separator_inj otherFresh.name.instanceName.part
    fresh.name.instanceName.part parts
  exact ⟨service.symm, instanceId.symm⟩

section Written

variable {config : TopologyConfig}

theorem key_ne_of_mem_writeChannel (standard : config.Standard) {sp : SocketProperty}
    {peers : List Text} {command : Command} (written : command ∈ config.writeChannel sp peers)
    {channel : Text} (part : Part channel) (otherPart : Part sp.name)
    (differs : sp.name ≠ channel) :
    instanceChannelKey config.fServiceName config.fId channel ≠ command.key ∧
      instancePeerKey config.fServiceName config.fId channel ≠ command.key := by
  have keys : command.key = instanceChannelKey config.fServiceName config.fId sp.name ∨
      command.key = instancePeerKey config.fServiceName config.fId sp.name := by
    rw [← channelKey_eq standard, ← peerListKey_eq standard]
    rw [writeChannel] at written
    split at written
    · simp at written
    · simp only [List.mem_cons, List.not_mem_nil, or_false] at written
      rcases written with rfl | rfl | rfl | rfl <;> simp [Command.key]
  rcases keys with same | same <;> rw [same]
  · exact ⟨fun equal => differs (instanceChannelKey_right_injective _ _ equal).symm,
      instancePeerKey_ne_instanceChannelKey otherPart _ _ _⟩
  · exact ⟨fun equal => instancePeerKey_ne_instanceChannelKey part _ _ _ equal.symm,
      fun equal => differs (instancePeerKey_right_injective _ _ equal).symm⟩

/-- The pipelines of channels with different names leave the properties and the
peers of each channel behind. -/
theorem lookup_writeChannels (standard : config.Standard) {records : List Configured}
    (distinct : (records.map (·.sp.name)).Nodup) (parts : ∀ record ∈ records, Part record.sp.name)
    {db : Db} {record : Configured} (member : record ∈ records)
    (unlisted : instancePeerKey config.fServiceName config.fId record.sp.name ∉ db) :
    lrange (execAll db (records.flatMap fun record => config.writeChannel record.sp record.peers))
        (instancePeerKey config.fServiceName config.fId record.sp.name) = record.peers ∧
      (record.peers ≠ [] → ∀ field, hget
        (execAll db (records.flatMap fun record => config.writeChannel record.sp record.peers))
        (instanceChannelKey config.fServiceName config.fId record.sp.name) (Field.text field) =
          some (fieldText record.sp field)) := by
  obtain ⟨before, after, rfl⟩ := List.append_of_mem member
  have part := parts record member
  have others : ∀ other ∈ before ++ after, Part other.sp.name ∧
      other.sp.name ≠ record.sp.name := by
    intro other inRest
    have inAll : other ∈ before ++ record :: after := by
      rcases List.mem_append.mp inRest with inBefore | inAfter
      · exact List.mem_append_left _ inBefore
      · exact List.mem_append_right _ (List.mem_cons_of_mem _ inAfter)
    rw [List.map_append, List.map_cons, List.nodup_middle, List.nodup_cons, ← List.map_append]
      at distinct
    exact ⟨parts other inAll, fun same => distinct.1 (same ▸ List.mem_map_of_mem inRest)⟩
  have untouched (records : List Configured) (inRest : ∀ other ∈ records, other ∈ before ++ after)
      (db : Db) {key : Text}
      (isKey : key = instanceChannelKey config.fServiceName config.fId record.sp.name ∨
        key = instancePeerKey config.fServiceName config.fId record.sp.name) :
      (execAll db (records.flatMap fun record =>
        config.writeChannel record.sp record.peers)).lookup key = db.lookup key := by
    apply lookup_execAll_of_notMem
    intro command inCommands
    obtain ⟨other, inRecords, written⟩ := List.mem_flatMap.mp inCommands
    obtain ⟨otherPart, differs⟩ := others other (inRest other inRecords)
    have different := key_ne_of_mem_writeChannel standard written part otherPart differs
    rcases isKey with rfl | rfl
    · exact different.1
    · exact different.2
  obtain ⟨middle, middleEq⟩ : ∃ middle, middle = execAll db (before.flatMap fun record =>
      config.writeChannel record.sp record.peers) := ⟨_, rfl⟩
  have split : execAll db ((before ++ record :: after).flatMap fun record =>
      config.writeChannel record.sp record.peers) =
      execAll (execAll middle (config.writeChannel record.sp record.peers))
        (after.flatMap fun record => config.writeChannel record.sp record.peers) := by
    rw [List.flatMap_append, List.flatMap_cons, execAll_append, execAll_append, middleEq]
  have noPeers : middle.lookup
      (instancePeerKey config.fServiceName config.fId record.sp.name) = none := by
    rw [middleEq, untouched before (fun _ => List.mem_append_left _) db (Or.inr rfl)]
    exact AList.lookup_eq_none.mpr unlisted
  have afterwards {key : Text} := @untouched after (fun _ => List.mem_append_right _)
    (execAll middle (config.writeChannel record.sp record.peers)) key
  rw [split, lrange_congr (afterwards (Or.inr rfl))]
  simp only [hget_congr (afterwards (Or.inl rfl))]
  by_cases empty : record.peers = []
  · rw [writeChannel, if_pos empty]
    refine ⟨?_, fun nonempty => absurd empty nonempty⟩
    simp [execAll, lrange, noPeers, empty]
  · have wrote : execAll middle (config.writeChannel record.sp record.peers) =
        rpush (hset middle (instanceChannelKey config.fServiceName config.fId record.sp.name)
            (channelFields record.sp))
          (instancePeerKey config.fServiceName config.fId record.sp.name) record.peers := by
      rw [writeChannel, if_neg empty]
      simp only [channelKey_eq standard, peerListKey_instanceChannelKey standard]
      rfl
    have keysDiffer := instancePeerKey_ne_instanceChannelKey part config.fServiceName config.fId
      record.sp.name
    rw [wrote]
    constructor
    · rw [lrange_rpush, lrange_congr (lookup_hset_of_ne _ keysDiffer _)]
      simp [lrange, noPeers]
    · intro _ field
      rw [hget_congr (lookup_rpush_of_ne _ keysDiffer.symm _), hget_hset]
      apply lookup_setFields_of_mem
      · exact show (Field.all.map Field.text).Nodup by decide
      · rw [channelFields_eq]
        exact List.mem_map.mpr ⟨field, field.mem_all, rfl⟩

end Written

/-! ## The links of a deployment -/

/-- Links between different services of which none begins with the service's name:
the service reads its own links only. -/
structure Separate (links : List LinkKey) (service : Text) : Prop where
  wellFormed : ∀ link ∈ links, link.WellFormed
  noSelf : ∀ link ∈ links, link.serviceL ≠ link.serviceR
  noPrefix : ∀ link ∈ links, service <+: link.serviceL → link.serviceL = service

namespace Separate

variable {links : List LinkKey} {service : Text} (separate : Separate links service)

include separate

theorem not_stray {link : LinkKey} (member : link ∈ links) {channel : Text} {far : Text × Text} :
    ¬ link.Stray service channel far := by
  intro stray
  cases stray with
  | foreign extends_ left => exact left (separate.noPrefix link member extends_)
  | foreignSelf extends_ left => exact left (separate.noPrefix link member extends_)
  | ownSelf left right => exact separate.noSelf link member (left.trans right.symm)

/-- Every recorded link has the service's own end first. -/
theorem near {fLinks : Links} (recorded : Recorded service links fLinks) {name : Text}
    {lp : LinkProperty} (found : fLinks.lookup name = some lp) :
    lp.myService = service ∧ lp.peerService ≠ service ∧ name = lp.spelling.pairName ∧
      lp.spelling.WellFormed ∧
      ∃ link ∈ links, link.Joins (service, lp.myChannel) (lp.peerService, lp.peerChannel) := by
  obtain ⟨link, member, readBy, nameEq, lpEq⟩ := recorded name lp found
  have differs := separate.noSelf link member
  have spelling : (link.seenBy service []).spelling = lp.spelling := by
    rw [lpEq]
    simp
  have wellFormed : lp.spelling.WellFormed :=
    spelling ▸ (separate.wellFormed link member).spelling_seenBy service []
  by_cases left : link.serviceL = service
  · rw [LinkKey.seenBy, if_pos left] at lpEq
    refine ⟨by rw [lpEq]; exact left, ?_, spelling ▸ nameEq, wellFormed, link, member, ?_⟩
    · rw [lpEq, ← left]
      exact differs.symm
    · rw [lpEq]
      exact Or.inl ⟨by rw [left], rfl⟩
  · have right : link.serviceR = service :=
      readBy.resolve_left fun extends_ => left (separate.noPrefix link member extends_)
    rw [LinkKey.seenBy, if_neg left] at lpEq
    refine ⟨by rw [lpEq]; exact right, ?_, spelling ▸ nameEq, wellFormed, link, member, ?_⟩
    · rw [lpEq]
      exact left
    · rw [lpEq]
      exact Or.inr ⟨by rw [right], rfl⟩

/-- What one recorded link contributes to a channel. -/
theorem linkPeers_eq {config : TopologyConfig}
    (recorded : Recorded service links config.fLinks) (db : Db) (channel : Text)
    {entry : Text × LinkProperty} (inLinks : entry ∈ ordered config.fLinks) :
    config.linkPeers db channel entry.2 =
      if entry.2.myChannel = channel then
        (config.presenceKeys db entry.2.peerService).map (config.peerKey entry.2.peerChannel)
      else [] := by
  obtain ⟨my, other, -⟩ := separate.near recorded (mem_ordered.mp inLinks)
  have different : entry.2.myService ≠ entry.2.peerService := my ▸ other.symm
  by_cases here : entry.2.myChannel = channel
  · simp [linkPeers, skips, farEnd, different, here]
  · simp [linkPeers, skips, different, here]

/-- No peer is contributed by two links, so the sockets are counted by the peers. -/
theorem nodup_contributedPeers {config : TopologyConfig} (standard : config.Standard)
    (recorded : Recorded service links config.fLinks) (db : Db) (channel : Text) :
    (config.contributedPeers db channel).Nodup := by
  rw [contributedPeers, List.nodup_flatMap]
  constructor
  · intro entry inLinks
    obtain ⟨-, -, -, wellFormed, -⟩ := separate.near recorded (mem_ordered.mp inLinks)
    rw [separate.linkPeers_eq recorded db channel inLinks]
    split
    · refine List.Nodup.map_on ?_ (nodup_scan _ _)
      intro first firstMem second secondMem same
      obtain ⟨firstId, rfl, -⟩ := (mem_presenceKeys standard wellFormed.plainR).mp firstMem
      obtain ⟨secondId, rfl, -⟩ := (mem_presenceKeys standard wellFormed.plainR).mp secondMem
      rw [peerKey_presenceKey standard, peerKey_presenceKey standard] at same
      rw [(instanceChannelKey_injective wellFormed.serviceR.1 wellFormed.serviceR.1
        wellFormed.channelR.1 wellFormed.channelR.1 same).2.1]
    · exact List.nodup_nil
  · have names : (ordered config.fLinks).Pairwise fun first second => first.1 ≠ second.1 :=
      List.pairwise_map.mp (nodup_keys_ordered config.fLinks)
    refine names.imp_of_mem ?_
    intro first second firstMem secondMem differ key inFirst inSecond
    have far {entry : Text × LinkProperty} (inLinks : entry ∈ ordered config.fLinks)
        (member : key ∈ config.linkPeers db channel entry.2) :
        entry.2.spelling.WellFormed ∧ entry.1 = entry.2.spelling.pairName ∧
          entry.2.myService = service ∧ entry.2.myChannel = channel ∧ ∃ instanceId,
            key = instanceChannelKey entry.2.peerService instanceId entry.2.peerChannel := by
      obtain ⟨my, -, nameEq, wellFormed, -⟩ := separate.near recorded (mem_ordered.mp inLinks)
      rw [separate.linkPeers_eq recorded db channel inLinks] at member
      split at member
      · rename_i here
        obtain ⟨presence, present, rfl⟩ := List.mem_map.mp member
        obtain ⟨instanceId, rfl, -⟩ := (mem_presenceKeys standard wellFormed.plainR).mp present
        exact ⟨wellFormed, nameEq, my, here, instanceId, peerKey_presenceKey standard _ _ _⟩
      · simp at member
    obtain ⟨formed, nameEq, my, here, instanceId, keyEq⟩ := far firstMem inFirst
    obtain ⟨formed', nameEq', my', here', instanceId', keyEq'⟩ := far secondMem inSecond
    obtain ⟨sameService, -, sameChannel⟩ := instanceChannelKey_injective formed.serviceR.1
      formed'.serviceR.1 formed.channelR.1 formed'.channelR.1 (keyEq.symm.trans keyEq')
    apply differ
    rw [nameEq, nameEq']
    apply congrArg LinkKey.pairName
    have service : first.2.peerService = second.2.peerService := sameService
    have channel : first.2.peerChannel = second.2.peerChannel := sameChannel
    simp only [LinkProperty.spelling, my, my', here, here', service, channel]

end Separate

/-- The two registries differ at most in keys that the instances write. -/
def Agrees (instances : List TopologyConfig) (db later : Db) : Prop :=
  ∀ key, (∀ config ∈ instances, ¬ OwnKey config key) → later.lookup key = db.lookup key

section Reads

variable {links : List LinkKey} {instances : List TopologyConfig} {db later : Db}

theorem Agrees.mem_presenceKey (agrees : Agrees instances db later) (service instanceId : Text) :
    presenceKey service instanceId ∈ later ↔ presenceKey service instanceId ∈ db :=
  mem_of_lookup_eq (agrees _ fun _ _ own => own.ne_presenceKey service instanceId rfl)

namespace Deployment

variable (deployment : Deployment links instances db)

include deployment

theorem channelName {config : TopologyConfig} (member : config ∈ instances) {channel : Text}
    (endpoint : config.endpointKey channel ∈ db) : ChannelName channel :=
  ⟨deployment.endpoints config member channel endpoint, fun reserved =>
    deployment.unreserved config member (reserved ▸ endpoint)⟩

theorem separate {config : TopologyConfig} (member : config ∈ instances) :
    Separate links config.fServiceName :=
  ⟨deployment.declares.wellFormed, deployment.noSelf, deployment.noPrefix config member⟩

theorem lookup_endpointKey (agrees : Agrees instances db later) {config : TopologyConfig}
    (member : config ∈ instances) (channel : Text) :
    later.lookup (config.endpointKey channel) = db.lookup (config.endpointKey channel) :=
  agrees _ fun other otherMem own => own.ne_endpointKey (deployment.fresh other otherMem)
    (deployment.fresh config member) channel rfl

theorem declares_later (agrees : Agrees instances db later) : Declares later links := by
  have same {key : Text} (comma : ',' ∈ key) : later.lookup key = db.lookup key :=
    agrees key fun config member own => own.commaFree (deployment.fresh config member) comma
  refine ⟨deployment.declares.wellFormed, fun link member => ?_, fun rest member comma => ?_⟩
  · obtain ⟨options, stored⟩ := deployment.declares.stored link member
    have comma : ',' ∈ link.key := by
      simp [LinkKey.key, LinkKey.pairName]
    exact ⟨options, (same comma).trans stored⟩
  · have inDb := (mem_of_lookup_eq (same (List.mem_append_right _ comma))).mp member
    exact deployment.declares.only rest inDb comma

/-- The peers of a channel are those of the deployment, and counted by its sockets. -/
theorem peersOf_peers (agrees : Agrees instances db later) {config : TopologyConfig}
    (member : config ∈ instances) {collected : TopologyConfig} (standard : collected.Standard)
    (sameService : collected.fServiceName = config.fServiceName)
    (recorded : Recorded config.fServiceName links collected.fLinks)
    (complete : ∀ link ∈ links, link.ReadBy config.fServiceName →
      (link.seenBy config.fServiceName []).spelling.pairName ∈ collected.fLinks)
    (channel : Text) :
    PeersOf links instances config.fServiceName channel (collected.peers later channel) ∧
      (collected.contributedPeers later channel).length =
        (collected.peers later channel).length := by
  have separate := deployment.separate member
  rw [← sameService] at recorded complete separate ⊢
  constructor
  · refine ⟨pairwise_lt_sortUnique _, fun key => ?_⟩
    rw [mem_peers standard separate.wellFormed recorded complete]
    have isEnd {link : LinkKey} (inLinks : link ∈ links) {far : Text × Text}
        (joins : link.Joins (collected.fServiceName, channel) far) : IsEnd links far.1 := by
      rcases joins with ⟨-, rfl⟩ | ⟨-, rfl⟩
      · exact ⟨link, inLinks, Or.inr rfl⟩
      · exact ⟨link, inLinks, Or.inl rfl⟩
    constructor
    · rintro ⟨link, inLinks, far, reaches, instanceId, stored, rfl⟩
      have joins := reaches.resolve_right (separate.not_stray inLinks)
      obtain ⟨peer, peerMem, service, rfl⟩ := (deployment.present _ (isEnd inLinks joins) _).mp
        ((agrees.mem_presenceKey _ _).mp stored)
      exact ⟨link, inLinks, far, joins, peer, peerMem, service, rfl⟩
    · rintro ⟨link, inLinks, far, joins, peer, peerMem, service, rfl⟩
      exact ⟨link, inLinks, far, Or.inl joins, peer.fId, (agrees.mem_presenceKey _ _).mpr
        ((deployment.present _ (isEnd inLinks joins) _).mpr ⟨peer, peerMem, service, rfl⟩), rfl⟩
  · exact (length_sortUnique_of_nodup
      (separate.nodup_contributedPeers standard recorded later channel)).symm

end Deployment

end Reads

end NestDaq.Topology
