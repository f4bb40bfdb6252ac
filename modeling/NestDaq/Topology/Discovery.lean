import NestDaq.Topology.Links
import NestDaq.Topology.Publication

/-!
# Peer discovery

The peers that `Initialize` computes for a channel are those of the links that
join the channel to another end, and those of the links a service reads beyond
its own: links of services whose names extend its name, and links within one
service that do not touch the channel. The discovery is exact when the second
kind adds no instance.
-/

namespace NestDaq.Topology

open NestDaq.Store
open NestDaq.Registry

/-- The peers of a channel are the sorted channel keys of the present instances
at the far ends of its links. -/
structure PeersExact (links : List LinkKey) (db : Db) (service channel : Text)
    (peers : List Text) : Prop where
  sorted : peers.Pairwise (· < ·)
  mem_iff : ∀ key, key ∈ peers ↔
    ∃ link ∈ links, ∃ far, link.Joins (service, channel) far ∧
      ∃ instanceId, Part instanceId ∧ presenceKey far.1 instanceId ∈ db ∧
        key = instanceChannelKey far.1 instanceId far.2

/-- The far end that a link contributes to a channel it does not join: a link of
a service whose name extends the reader's, or a link within one service whose
ends are two other channels. -/
@[mk_iff]
inductive LinkKey.Stray (link : LinkKey) (service channel : Text) : Text × Text → Prop where
  | foreign (extends_ : service <+: link.serviceL) (left : link.serviceL ≠ service)
      (right : link.serviceR ≠ service) (between : link.serviceL ≠ link.serviceR)
      (sameChannel : link.channelR = channel) :
      Stray link service channel (link.serviceL, link.channelL)
  | foreignSelf (extends_ : service <+: link.serviceL) (left : link.serviceL ≠ service)
      (within : link.serviceL = link.serviceR) :
      Stray link service channel
        (if link.channelL = channel then (link.serviceR, link.channelR)
          else (link.serviceL, link.channelL))
  | ownSelf (left : link.serviceL = service) (right : link.serviceR = service)
      (otherL : link.channelL ≠ channel) (otherR : link.channelR ≠ channel) :
      Stray link service channel (link.serviceR, link.channelR)

/-- Every key selected as a presence key belongs to an instance, and every stray
far end with an instance present is joined to the channel by another link. -/
structure Clean (links : List LinkKey) (db : Db) (service channel : Text) : Prop where
  presence : ∀ link ∈ links, ∀ far,
    link.Joins (service, channel) far ∨ link.Stray service channel far →
      ∀ instanceId, presenceKey far.1 instanceId ∈ db → Part instanceId
  stray : ∀ link ∈ links, ∀ far, link.Stray service channel far →
    (∃ instanceId, presenceKey far.1 instanceId ∈ db) →
      ∃ other ∈ links, other.Joins (service, channel) far

theorem LinkKey.Joins.readBy {link : LinkKey} {near far : Text × Text}
    (joins : link.Joins near far) : link.ReadBy near.1 := by
  rcases joins with ⟨rfl, -⟩ | ⟨rfl, -⟩
  · exact Or.inl (List.prefix_refl _)
  · exact Or.inr rfl

theorem LinkKey.Stray.readBy {link : LinkKey} {service channel : Text} {far : Text × Text}
    (stray : link.Stray service channel far) : link.ReadBy service := by
  cases stray with
  | foreign extends_ => exact Or.inl extends_
  | foreignSelf extends_ => exact Or.inl extends_
  | ownSelf left => exact Or.inl (left ▸ List.prefix_refl _)

theorem LinkKey.WellFormed.far {link : LinkKey} (wellFormed : link.WellFormed)
    {service channel : Text} {far : Text × Text}
    (reaches : link.Joins (service, channel) far ∨ link.Stray service channel far) :
    ServiceName far.1 ∧ Part far.2 := by
  have left := wellFormed.serviceNameL
  have right := wellFormed.serviceNameR
  rcases reaches with (⟨-, rfl⟩ | ⟨-, rfl⟩) | stray
  · exact ⟨right, wellFormed.channelR.1⟩
  · exact ⟨left, wellFormed.channelL.1⟩
  · cases stray with
    | foreign => exact ⟨left, wellFormed.channelL.1⟩
    | foreignSelf =>
        split
        · exact ⟨right, wellFormed.channelR.1⟩
        · exact ⟨left, wellFormed.channelL.1⟩
    | ownSelf => exact ⟨right, wellFormed.channelR.1⟩

/-- The branches of `Initialize` for one recorded link. -/
theorem LinkKey.contributes_iff {link : LinkKey} {service : Text}
    (readBy : link.ReadBy service) (channel options : Text) (far : Text × Text) :
    (TopologyConfig.skips (link.seenBy service options) channel = false ∧
        TopologyConfig.farEnd (link.seenBy service options) channel = far) ↔
      link.Joins (service, channel) far ∨ link.Stray service channel far := by
  obtain ⟨serviceL, channelL, serviceR, channelR⟩ := link
  simp only [Joins, stray_iff, Prod.mk.injEq]
  by_cases left : serviceL = service
  · have seen : (⟨serviceL, channelL, serviceR, channelR⟩ : LinkKey).seenBy service options =
        ⟨serviceL, channelL, serviceR, channelR, options⟩ := if_pos left
    rw [seen]
    by_cases right : serviceR = service
    · simp only [TopologyConfig.skips, TopologyConfig.farEnd]
      grind
    · simp only [TopologyConfig.skips, TopologyConfig.farEnd]
      grind
  · have seen : (⟨serviceL, channelL, serviceR, channelR⟩ : LinkKey).seenBy service options =
        ⟨serviceR, channelR, serviceL, channelL, options⟩ := if_neg left
    rw [seen]
    by_cases right : serviceR = service
    · simp only [TopologyConfig.skips, TopologyConfig.farEnd]
      grind
    · have extends_ : service <+: serviceL := readBy.resolve_right right
      by_cases within : serviceL = serviceR
      · simp only [TopologyConfig.skips, TopologyConfig.farEnd]
        grind
      · simp only [TopologyConfig.skips, TopologyConfig.farEnd]
        grind

namespace TopologyConfig

variable {config : TopologyConfig} {db : Db} {links : List LinkKey}

theorem mem_presenceKeys (standard : config.Standard) {service : Text}
    (plain : Glob.Plain service) {key : Text} :
    key ∈ config.presenceKeys db service ↔
      ∃ instanceId, key = presenceKey service instanceId ∧ key ∈ db := by
  have pattern : config.key [config.fTopPrefix, service, ['*'], presencePrefix] =
      presenceKey service ['*'] := by
    rw [TopologyConfig.key, standard.top, standard.separator, presenceKey]
  rw [presenceKeys, pattern, mem_scan, stringmatch_presence plain]
  constructor
  · rintro ⟨member, instanceId, keyEq⟩
    exact ⟨instanceId, keyEq, member⟩
  · rintro ⟨instanceId, keyEq, member⟩
    exact ⟨member, instanceId, keyEq⟩

theorem peerKey_presenceKey (standard : config.Standard) (channel service instanceId : Text) :
    config.peerKey channel (presenceKey service instanceId) =
      instanceChannelKey service instanceId channel := by
  have split : presenceKey service instanceId =
      (topPrefix ++ ':' :: (service ++ ':' :: instanceId)) ++ ':' :: presencePrefix := by
    simp [presenceKey_eq]
  have front : Text.substrTo (presenceKey service instanceId)
      (Text.findLastOf (presenceKey service instanceId) colon) =
      topPrefix ++ ':' :: (service ++ ':' :: instanceId) := by
    rw [split, Text.findLastOf_append_cons (by decide) (by decide), Text.substrTo_length]
  rw [peerKey, standard.separator, front]
  simp [TopologyConfig.key, standard.separator, colon, instanceChannelKey_eq]

/-- A peer is contributed by a link that joins the channel, or by a stray one. -/
theorem mem_peers (standard : config.Standard) (declared : ∀ link ∈ links, link.WellFormed)
    (recorded : Recorded config.fServiceName links config.fLinks)
    (complete : ∀ link ∈ links, link.ReadBy config.fServiceName →
      (link.seenBy config.fServiceName []).spelling.pairName ∈ config.fLinks)
    {channel key : Text} :
    key ∈ config.peers db channel ↔
      ∃ link ∈ links, ∃ far,
        (link.Joins (config.fServiceName, channel) far ∨
          link.Stray config.fServiceName channel far) ∧
        ∃ instanceId, presenceKey far.1 instanceId ∈ db ∧
          key = instanceChannelKey far.1 instanceId far.2 := by
  have contributed {link : LinkKey} (member : link ∈ links) {far : Text × Text}
      (reaches : link.Joins (config.fServiceName, channel) far ∨
        link.Stray config.fServiceName channel far) :
      key ∈ (config.presenceKeys db far.1).map (config.peerKey far.2) ↔
        ∃ instanceId, presenceKey far.1 instanceId ∈ db ∧
          key = instanceChannelKey far.1 instanceId far.2 := by
    have plain := ((declared link member).far reaches).1.plain
    rw [List.mem_map]
    constructor
    · rintro ⟨presence, present, rfl⟩
      obtain ⟨instanceId, rfl, stored⟩ := (mem_presenceKeys standard plain).mp present
      exact ⟨instanceId, stored, peerKey_presenceKey standard _ _ _⟩
    · rintro ⟨instanceId, stored, rfl⟩
      exact ⟨presenceKey far.1 instanceId,
        (mem_presenceKeys standard plain).mpr ⟨instanceId, rfl, stored⟩,
        peerKey_presenceKey standard _ _ _⟩
  rw [peers, mem_sortUnique, contributedPeers, List.mem_flatMap]
  constructor
  · rintro ⟨⟨name, lp⟩, entry, added⟩
    obtain ⟨link, member, readBy, -, lpEq⟩ := recorded name lp (mem_ordered.mp entry)
    rw [linkPeers] at added
    split at added
    · simp at added
    · rename_i notSkipped
      have reaches := (LinkKey.contributes_iff readBy channel lp.options _).mp
        ⟨by rw [← lpEq]; simpa using notSkipped, rfl⟩
      rw [← lpEq] at reaches
      exact ⟨link, member, _, reaches, (contributed member reaches).mp added⟩
  · rintro ⟨link, member, far, reaches, present⟩
    have readBy : link.ReadBy config.fServiceName :=
      reaches.elim LinkKey.Joins.readBy LinkKey.Stray.readBy
    obtain ⟨options, found⟩ := recorded.lookup declared member (complete link member readBy)
    obtain ⟨notSkipped, farEq⟩ :=
      (LinkKey.contributes_iff readBy channel options far).mpr reaches
    refine ⟨⟨_, _⟩, mem_ordered.mpr found, ?_⟩
    rw [linkPeers, notSkipped, farEq]
    exact (contributed member reaches).mpr present

/-- The peers of a channel are exact if and only if nothing strays in. -/
theorem peersExact_peers_iff (standard : config.Standard)
    (declared : ∀ link ∈ links, link.WellFormed)
    (recorded : Recorded config.fServiceName links config.fLinks)
    (complete : ∀ link ∈ links, link.ReadBy config.fServiceName →
      (link.seenBy config.fServiceName []).spelling.pairName ∈ config.fLinks) (channel : Text) :
    PeersExact links db config.fServiceName channel (config.peers db channel) ↔
      Clean links db config.fServiceName channel := by
  have memPeers {key : Text} : key ∈ config.peers db channel ↔ _ :=
    mem_peers standard declared recorded complete
  constructor
  · intro exactPeers
    -- Every contributed peer is, by exactness, a peer over a link that joins the channel.
    have origin {link : LinkKey} (member : link ∈ links) {far : Text × Text}
        (reaches : link.Joins (config.fServiceName, channel) far ∨
          link.Stray config.fServiceName channel far)
        {instanceId : Text} (present : presenceKey far.1 instanceId ∈ db) :
        Part instanceId ∧ ∃ other ∈ links, other.Joins (config.fServiceName, channel) far := by
      obtain ⟨other, otherMem, far', joins, instanceId', part, -, same⟩ :=
        (exactPeers.mem_iff _).mp
          (memPeers.mpr ⟨link, member, far, reaches, instanceId, present, rfl⟩)
      have here := (declared link member).far reaches
      have there := (declared other otherMem).far (Or.inl joins)
      obtain ⟨sameService, sameInstance, sameChannel⟩ :=
        instanceChannelKey_injective here.1.part there.1.part here.2 there.2 same
      have sameFar : far = far' := Prod.ext sameService sameChannel
      exact ⟨sameInstance ▸ part, other, otherMem, sameFar ▸ joins⟩
    constructor
    · intro link member far reaches instanceId present
      exact (origin member reaches present).1
    · rintro link member far stray ⟨instanceId, present⟩
      exact (origin member (Or.inr stray) present).2
  · intro clean
    refine ⟨pairwise_lt_sortUnique _, fun key => memPeers.trans ?_⟩
    constructor
    · rintro ⟨link, member, far, reaches, instanceId, present, rfl⟩
      have part := clean.presence link member far reaches instanceId present
      rcases reaches with joins | stray
      · exact ⟨link, member, far, joins, instanceId, part, present, rfl⟩
      · obtain ⟨other, otherMem, joins⟩ := clean.stray link member far stray ⟨instanceId, present⟩
        exact ⟨other, otherMem, far, joins, instanceId, part, present, rfl⟩
    · rintro ⟨link, member, far, joins, instanceId, -, present, rfl⟩
      exact ⟨link, member, far, Or.inl joins, instanceId, present, rfl⟩

/-- A sampler with one bound channel, before its first `Initialize`. -/
def sampler : TopologyConfig :=
  { fTopPrefix := topPrefix, fServiceName := "Sampler".toList, fId := "Sampler-0".toList }

/-- The links of a service whose name extends the sampler's, and of the sampler. -/
def samplerLinks (own : Bool) : List LinkKey :=
  if own then
    [⟨"Sampler".toList, "data".toList, "Filter".toList, "in".toList⟩]
  else [⟨"Sampler2".toList, "out".toList, "Filter".toList, "data".toList⟩]

/-- A registry with the sampler's endpoint, the links and two instances. -/
def samplerRegistry (own : Bool) : Db :=
  let endpoint := hset ∅ "daq_service:topology:endpoint:Sampler:data".toList
    [(Field.text .method, "bind".toList)]
  let declared := (samplerLinks own).foldl (fun db link => set db link.key []) endpoint
  set (set declared (presenceKey "Sampler2".toList "Sampler2-0".toList) [])
    (presenceKey "Filter".toList "Filter-0".toList) []

theorem samplerRegistry_declares (own : Bool) :
    Declares (samplerRegistry own) (samplerLinks own) := by
  cases own <;> exact declares_of_keys (by decide) (by decide) (by decide)

/-- What the sampler computes for its channel. -/
theorem sampler_initializeChannels (own : Bool) : ∃ config' db',
    sampler.initializeChannels (samplerRegistry own) = some (config', db',
      [⟨samplerRegistry own, { name := "data".toList, method := "bind".toList },
        [if own then "daq_service:Filter:Filter-0:channel:in".toList
          else "daq_service:Sampler2:Sampler2-0:channel:out".toList]⟩]) := by
  cases own <;> exact ⟨_, _, rfl⟩

theorem sampler_standard : sampler.Standard :=
  ⟨rfl, rfl⟩
theorem sampler_serviceName : ServiceName sampler.fServiceName :=
  ⟨by decide, by decide, by decide⟩

theorem sampler_clean :
    Clean (samplerLinks true) (samplerRegistry true) sampler.fServiceName "data".toList := by
  have noStray : ∀ link ∈ samplerLinks true, ∀ far,
      ¬ link.Stray sampler.fServiceName "data".toList far := by
    rintro link member far stray
    obtain rfl := List.mem_singleton.mp member
    cases stray with
    | foreign _ left => exact left rfl
    | foreignSelf _ left => exact left rfl
    | ownSelf _ right => exact absurd right (by decide)
  constructor
  · intro link member far reaches instanceId present
    have joins := reaches.resolve_right (noStray link member far)
    obtain rfl := List.mem_singleton.mp member
    obtain rfl : far = ("Filter".toList, "in".toList) := by
      rcases joins with ⟨-, farEq⟩ | ⟨near, -⟩
      · exact farEq
      · exact absurd near (by decide)
    have only : ∀ key ∈ (samplerRegistry true).keys, 
        topPrefix ++ ':' :: ("Filter".toList ++ [':']) <+: key →
        key = presenceKey "Filter".toList "Filter-0".toList := by decide
    have same := only _ (AList.mem_keys.mp present) (prefix_presenceKey _ _)
    rw [presenceKey_right_injective _ same]
    decide
  · rintro link member far stray -
    exact absurd stray (noStray link member far)

end TopologyConfig

end NestDaq.Topology
