import NestDaq.Topology.Discovery

/-!
# Links from either end

A link may be declared by either of two keys, with one or the other end first, and it is
read by the services of both ends. For a link between two services all of them agree. A link
within one service is put in order by the names of its channels, but the ends are assigned
once more behind that, in the order in which they are spelled.
-/

namespace NestDaq.Topology

open NestDaq.Store

namespace LinkKey

/-- The link in its other spelling. -/
def swap (link : LinkKey) : LinkKey :=
  ⟨link.serviceR, link.channelR, link.serviceL, link.channelL⟩

@[simp]
theorem swap_swap (link : LinkKey) : link.swap.swap = link :=
  rfl

theorem Named.swap {link : LinkKey} (named : link.Named) : link.swap.Named :=
  ⟨named.serviceR, named.channelR, named.serviceL, named.channelL⟩

theorem swap_injective : Function.Injective swap :=
  Function.LeftInverse.injective swap_swap

/-- The ends are two channels, or channels of two services. -/
def Distinct (link : LinkKey) : Prop :=
  (link.serviceL, link.channelL) ≠ (link.serviceR, link.channelR)

/-- The link as a service records it. -/
theorem spelling_seenBy_eq (link : LinkKey) (service options : Text) :
    (link.seenBy service options).spelling = if link.serviceL = service then link else link.swap :=
  spelling_seenBy link service options

theorem Named.spelling_seenBy {link : LinkKey} (named : link.Named) (service options : Text) :
    (link.seenBy service options).spelling.Named := by
  rw [spelling_seenBy_eq]
  split
  · exact named
  · exact named.swap

/-- An owner of one end records a link between two services with its own end first, whichever
way it is spelled. -/
theorem seenBy_of_ne {link : LinkKey} {service : Text} (owned : link.serviceL = service)
    (other : link.serviceR ≠ service) (options options' : Text) :
    (link.seenBy service options).spelling = link ∧
      (link.swap.seenBy service options').spelling = link := by
  rw [spelling_seenBy_eq, spelling_seenBy_eq, if_pos owned]
  exact ⟨rfl, if_neg other⟩

/-- Within one service both spellings are recorded as they are. -/
theorem seenBy_of_eq {link : LinkKey} {service : Text} (owned : link.serviceL = service)
    (same : link.serviceR = service) (options options' : Text) :
    (link.seenBy service options).spelling = link ∧
      (link.swap.seenBy service options').spelling = link.swap := by
  rw [spelling_seenBy_eq, spelling_seenBy_eq, if_pos owned]
  exact ⟨rfl, if_pos same⟩

end LinkKey

namespace TopologyConfig

variable {config : TopologyConfig}

/-- The loop of `Initialize` over the keys of links. -/
def recordLinks (config : TopologyConfig) (db : Db) (keys : List Text) : Option TopologyConfig :=
  keys.foldlM (fun config link => (config.readLinkProperty db link).map config.addLink) config

/-- `Initialize` records the links that `ReadLinks` finds. -/
theorem collectLinks_eq_recordLinks (db : Db) :
    config.collectLinks db = config.recordLinks db (config.readLinks db) :=
  rfl

/-- The entry is one of the link, from either end. -/
def IsEntry (link : LinkKey) (entry : Text × LinkProperty) : Prop :=
  entry.2.spelling = link ∨ entry.2.spelling = link.swap

instance (link : LinkKey) (entry : Text × LinkProperty) : Decidable (IsEntry link entry) :=
  inferInstanceAs (Decidable (_ ∨ _))

/-- The recorded entries stem from the given links, read by a service. -/
def ReadFrom (service : Text) (links : List LinkKey) (fLinks : Links) : Prop :=
  ∀ name lp, fLinks.lookup name = some lp →
    name = lp.spelling.pairName ∧ ∃ link ∈ links, lp.spelling = (link.seenBy service []).spelling

/-- The keys declare links, each of which has options in the registry. -/
def Stored (db : Db) (links : List LinkKey) : Prop :=
  ∀ link ∈ links, link.Named ∧ (get db link.key).isSome

/-- The record of a link is the same from either spelling, one entry is made of both however
many other links there are, a channel counts the peers of that entry once, and the service of
the other end obtains the mirrored record. -/
structure MeansOneLink (config : TopologyConfig) (link : LinkKey) : Prop where
  parsed : ∀ db, (get db link.key).isSome → (get db link.swap.key).isSome →
    ∃ lp lp', config.readLinkProperty db link.key = some lp ∧
      config.readLinkProperty db link.swap.key = some lp' ∧
      lp.spelling = lp'.spelling ∧ lp.myService = config.fServiceName
  merged : ∀ db earlier links, (∀ other ∈ earlier, other.Named) →
    ReadFrom config.fServiceName earlier config.fLinks →
    Stored db links → link ∈ links → link.swap ∈ links →
    ∃ config' name lp, config.recordLinks db (links.map LinkKey.key) = some config' ∧
      (ordered config'.fLinks).filter (IsEntry link) = [(name, lp)] ∧
      lp.myService = config.fServiceName ∧
      ∀ sp : SocketProperty, sp.autoSubChannel = true → sp.name = lp.myChannel →
        (config'.countPeers db sp).numSockets = sp.numSockets +
          ((((ordered config'.fLinks).filter fun entry => ¬ IsEntry link entry).flatMap
              fun entry => config'.linkPeers db sp.name entry.2).length +
            (config'.presenceKeys db lp.peerService).length)
  mirrored : ∀ (other : TopologyConfig) (db : Db) (key : Text), other.Standard →
    other.fServiceName ≠ config.fServiceName →
    other.fServiceName = link.serviceL ∨ other.fServiceName = link.serviceR →
    key = link.key ∨ key = link.swap.key → (get db key).isSome →
    ∃ lp lp', config.readLinkProperty db key = some lp ∧
      other.readLinkProperty db key = some lp' ∧ lp'.spelling = lp.spelling.swap

/-! ## Recording links -/

section Recording

variable {db : Db} {earlier links : List LinkKey} {link near : LinkKey}

theorem readLinkProperty_isSome (standard : config.Standard) (named : link.Named)
    (stored : (get db link.key).isSome) :
    ∃ options, config.readLinkProperty db link.key =
      some (link.seenBy config.fServiceName options) := by
  rcases Option.isSome_iff_exists.mp stored with ⟨options, found⟩
  exact ⟨options, readLinkProperty_of_named standard named found⟩

/-- One more link is recorded, or its options are added to those of its entry. -/
theorem addLink_readFrom (standard : config.Standard) (options : Text)
    (readFrom : ReadFrom config.fServiceName earlier config.fLinks) :
    ∃ fLinks, config.addLink (link.seenBy config.fServiceName options) =
        { config with fLinks := fLinks } ∧
      ReadFrom config.fServiceName (earlier ++ [link]) fLinks ∧
      ∀ name, name ∈ fLinks ↔
        name = (link.seenBy config.fServiceName []).spelling.pairName ∨ name ∈ config.fLinks := by
  rcases addLink_eq config (link.seenBy config.fServiceName options) with ⟨options', added⟩
  rw [linkName_seenBy standard] at added
  refine ⟨_, added, ?_, fun name => AList.mem_insert _⟩
  intro name lp found
  by_cases same : name = (link.seenBy config.fServiceName []).spelling.pairName
  · subst same
    rw [AList.lookup_insert] at found
    cases found
    cases known : config.fLinks.lookup (link.seenBy config.fServiceName []).spelling.pairName with
    | none =>
        have spelled : (link.seenBy config.fServiceName options).spelling =
            (link.seenBy config.fServiceName []).spelling := by
          rw [LinkKey.spelling_seenBy_eq, LinkKey.spelling_seenBy_eq]
        constructor
        · exact congrArg LinkKey.pairName spelled.symm
        · exact ⟨link, List.mem_append_right _ List.mem_cons_self, spelled⟩
    | some lp =>
        rcases readFrom _ _ known with ⟨nameEq, other, member, spelled⟩
        exact ⟨nameEq, other, List.mem_append_left _ member, spelled⟩
  · rw [AList.lookup_insert_ne same] at found
    rcases readFrom name lp found with ⟨nameEq, other, member, spelled⟩
    exact ⟨nameEq, other, List.mem_append_left _ member, spelled⟩

/-- All links are recorded. -/
theorem recordLinks_spec (standard : config.Standard) (stored : Stored db links)
    (readFrom : ReadFrom config.fServiceName earlier config.fLinks) :
    ∃ fLinks, config.recordLinks db (links.map LinkKey.key) =
        some { config with fLinks := fLinks } ∧
      ReadFrom config.fServiceName (earlier ++ links) fLinks ∧
      (∀ name ∈ config.fLinks, name ∈ fLinks) ∧
      ∀ link ∈ links, (link.seenBy config.fServiceName []).spelling.pairName ∈ fLinks := by
  induction links generalizing config earlier with
  | nil =>
      rw [List.append_nil]
      exact ⟨config.fLinks, rfl, readFrom, fun name known => known,
        fun link none => absurd none List.not_mem_nil⟩
  | cons link links ih =>
      rcases stored link List.mem_cons_self with ⟨named, hasOptions⟩
      rcases readLinkProperty_isSome standard named hasOptions with ⟨options, read⟩
      rcases @addLink_readFrom config earlier link standard options readFrom with
        ⟨added, addedEq, addedFrom, addedMem⟩
      have standard' : ({ config with fLinks := added } : TopologyConfig).Standard :=
        ⟨standard.top, standard.separator⟩
      rcases ih standard' (fun other member => stored other (List.mem_cons_of_mem _ member))
        addedFrom with ⟨fLinks, recorded, from', kept, complete⟩
      refine ⟨fLinks, ?_, ?_, ?_, ?_⟩
      · rw [List.map_cons, recordLinks, List.foldlM_cons, read, Option.map_some, addedEq]
        exact recorded
      · rw [List.append_assoc, List.singleton_append] at from'
        exact from'
      · intro name known
        exact kept name ((addedMem name).mpr (Or.inr known))
      · intro other member
        rcases List.mem_cons.mp member with rfl | member
        · exact kept _ ((addedMem _).mpr (Or.inl rfl))
        · exact complete other member

/-- Both spellings of a link between two services are read with the own end first. -/
theorem spelling_of_isEntry (own : near.serviceL = config.fServiceName)
    (far : near.serviceR ≠ config.fServiceName) (isEntry : link = near ∨ link = near.swap)
    (options : Text) : (link.seenBy config.fServiceName options).spelling = near := by
  rcases isEntry with rfl | rfl
  · exact (LinkKey.seenBy_of_ne own far options []).1
  · exact (LinkKey.seenBy_of_ne own far [] options).2

/-- No link between two services is read with the end of the other service first. -/
theorem spelling_ne_swap (own : near.serviceL = config.fServiceName)
    (far : near.serviceR ≠ config.fServiceName) (other : LinkKey) (options : Text) :
    (other.seenBy config.fServiceName options).spelling ≠ near.swap := by
  rw [LinkKey.spelling_seenBy_eq]
  split_ifs with left
  · rintro rfl
    exact far left
  · intro same
    rw [LinkKey.swap_injective same] at left
    exact left own

/-- One entry is left of both spellings. -/
theorem filter_isEntry (standard : config.Standard) (named : near.Named)
    (own : near.serviceL = config.fServiceName) (far : near.serviceR ≠ config.fServiceName)
    (earlierNamed : ∀ other ∈ earlier, other.Named) (stored : Stored db links)
    (readFrom : ReadFrom config.fServiceName earlier config.fLinks) (member : near ∈ links) :
    ∃ fLinks lp, config.recordLinks db (links.map LinkKey.key) =
        some { config with fLinks := fLinks } ∧
      lp.spelling = near ∧
      (ordered fLinks).filter (IsEntry near) = [(near.pairName, lp)] := by
  rcases recordLinks_spec standard stored readFrom with ⟨fLinks, recorded, from', -, complete⟩
  have known := complete near member
  rw [spelling_of_isEntry own far (Or.inl rfl)] at known
  rcases Option.isSome_iff_exists.mp (AList.lookup_isSome.mpr known) with ⟨lp, found⟩
  have allNamed : ∀ other ∈ earlier ++ links, other.Named := by
    intro other inLists
    rcases List.mem_append.mp inLists with inEarlier | inLinks
    · exact earlierNamed other inEarlier
    · exact (stored other inLinks).1
  have spelled : ∀ name lp, fLinks.lookup name = some lp → IsEntry near (name, lp) →
      name = near.pairName := by
    intro name lp found isEntry
    rcases from' name lp found with ⟨nameEq, other, -, read⟩
    rcases isEntry with first | second
    · rw [nameEq]
      exact congrArg LinkKey.pairName first
    · exact absurd (read.symm.trans second) (spelling_ne_swap own far other [])
  have isNear : lp.spelling = near := by
    rcases from' _ lp found with ⟨nameEq, other, inLists, read⟩
    have lpNamed : lp.spelling.Named := by
      rw [read]
      exact (allNamed other inLists).spelling_seenBy _ _
    exact (named.pairName_injective lpNamed nameEq).symm
  refine ⟨fLinks, lp, recorded, isNear, ?_⟩
  apply filter_ordered_eq_singleton found
  · exact decide_eq_true (Or.inl isNear)
  · intro name lp' found' isEntry
    exact spelled name lp' found' (of_decide_eq_true isEntry)

/-- The peers that all entries contribute, and those of the entries that are chosen. -/
theorem length_contributedPeers (config : TopologyConfig) (db : Db) (channel : Text)
    (chosen : Text × LinkProperty → Bool) :
    (config.contributedPeers db channel).length =
      (((ordered config.fLinks).filter fun entry => !chosen entry).flatMap
          fun entry => config.linkPeers db channel entry.2).length +
        (((ordered config.fLinks).filter chosen).flatMap
          fun entry => config.linkPeers db channel entry.2).length := by
  have perm := List.filter_append_perm chosen (ordered config.fLinks)
  have same := (perm.flatMap_right fun entry => config.linkPeers db channel entry.2).length_eq
  rw [List.flatMap_append, List.length_append] at same
  rw [contributedPeers, ← same, Nat.add_comm]

/-- A channel at the own end of an entry between two services takes the far service's
instances as its peers. -/
theorem length_linkPeers {lp : LinkProperty} (apart : lp.myService ≠ lp.peerService) :
    (config.linkPeers db lp.myChannel lp).length =
      (config.presenceKeys db lp.peerService).length := by
  simp [linkPeers, skips, farEnd, apart]

end Recording

/-! ## Both ends -/

section Ends

variable {link near : LinkKey}

/-- The entries of a link are those of its other spelling. -/
theorem isEntry_congr (isEntry : link = near ∨ link = near.swap) (entry : Text × LinkProperty) :
    IsEntry link entry ↔ IsEntry near entry := by
  rcases isEntry with rfl | rfl
  · exact Iff.rfl
  · exact or_comm

theorem swap_isEntry (isEntry : link = near ∨ link = near.swap) :
    link.swap = near ∨ link.swap = near.swap := by
  rcases isEntry with rfl | rfl
  · exact Or.inr rfl
  · exact Or.inl rfl

/-- Any key of the link is read with the own end first. -/
theorem exists_readLinkProperty {db : Db} (standard : config.Standard) (named : near.Named)
    (own : near.serviceL = config.fServiceName) (far : near.serviceR ≠ config.fServiceName)
    (isEntry : link = near ∨ link = near.swap) (stored : (get db link.key).isSome) :
    ∃ lp, config.readLinkProperty db link.key = some lp ∧ lp.spelling = near := by
  have linkNamed : link.Named := by
    rcases isEntry with rfl | rfl
    · exact named
    · exact named.swap
  rcases readLinkProperty_isSome standard linkNamed stored with ⟨options, read⟩
  exact ⟨_, read, spelling_of_isEntry own far isEntry options⟩

/-- A service that owns an end of a link between two services gets one link from it. -/
theorem meansOneLink_of_near (standard : config.Standard) (named : near.Named)
    (own : near.serviceL = config.fServiceName) (far : near.serviceR ≠ config.fServiceName)
    (isEntry : link = near ∨ link = near.swap) : config.MeansOneLink link := by
  constructor
  · intro db stored stored'
    rcases exists_readLinkProperty standard named own far isEntry stored with ⟨lp, read, spelled⟩
    rcases exists_readLinkProperty standard named own far (swap_isEntry isEntry) stored' with
      ⟨lp', read', spelled'⟩
    refine ⟨lp, lp', read, read', spelled.trans spelled'.symm, ?_⟩
    exact (congrArg LinkKey.serviceL spelled).trans own
  · intro db earlier links earlierNamed readFrom stored member swapMember
    have nearMember : near ∈ links := by
      rcases isEntry with rfl | rfl
      · exact member
      · exact swapMember
    rcases filter_isEntry standard named own far earlierNamed stored readFrom nearMember with
      ⟨fLinks, lp, recorded, spelled, single⟩
    have myService : lp.myService = config.fServiceName :=
      (congrArg LinkKey.serviceL spelled).trans own
    have peerService : lp.peerService = near.serviceR := congrArg LinkKey.serviceR spelled
    have entries : (ordered fLinks).filter (IsEntry link) = [(near.pairName, lp)] := by
      rw [← single]
      apply List.filter_congr
      intro entry _
      exact decide_eq_decide.mpr (isEntry_congr isEntry entry)
    refine ⟨{ config with fLinks := fLinks }, near.pairName, lp, recorded, entries, myService, ?_⟩
    intro sp auto ownChannel
    have apart : lp.myService ≠ lp.peerService := by
      rw [myService, peerService]
      exact far.symm
    have counted := length_contributedPeers { config with fLinks := fLinks } db sp.name
      fun entry => IsEntry link entry
    rw [entries, List.flatMap_singleton, ownChannel, length_linkPeers apart] at counted
    rw [countPeers, if_pos auto]
    simp only [ownChannel, counted, decide_not, Int.natCast_add]
  · intro other db key otherStandard different owns isKey stored
    have theirs : near.serviceR = other.fServiceName := by
      rcases isEntry with rfl | rfl
      · exact (owns.resolve_left fun same => different (same.trans own)).symm
      · exact (owns.resolve_right fun same => different (same.trans own)).symm
    have spellings : ∃ spelling : LinkKey, key = spelling.key ∧
        (spelling = near ∨ spelling = near.swap) := by
      rcases isKey with rfl | rfl
      · exact ⟨link, rfl, isEntry⟩
      · exact ⟨link.swap, rfl, swap_isEntry isEntry⟩
    rcases spellings with ⟨spelling, rfl, isSpelling⟩
    rcases exists_readLinkProperty standard named own far isSpelling stored with
      ⟨lp, read, spelled⟩
    have ofOther := @exists_readLinkProperty other spelling near.swap db otherStandard named.swap
      theirs (fun same => different (same.symm.trans own)) isSpelling.symm stored
    rcases ofOther with ⟨lp', read', spelled'⟩
    exact ⟨lp, lp', read, read', spelled'.trans (congrArg LinkKey.swap spelled.symm)⟩

/-- A link between two channels of one service is recorded in two ways. -/
theorem not_meansOneLink (standard : config.Standard) (named : link.Named)
    (distinct : link.Distinct) (ownL : link.serviceL = config.fServiceName)
    (ownR : link.serviceR = config.fServiceName) : ¬ config.MeansOneLink link := by
  intro means
  have stored : ∃ db : Db, get db link.key = some [] ∧ get db link.swap.key = some [] := by
    refine ⟨((∅ : Db).insert link.key (.string [])).insert link.swap.key (.string []), ?_, ?_⟩
    · by_cases same : link.key = link.swap.key
      · rw [Store.get, same, AList.lookup_insert]
      · rw [Store.get, AList.lookup_insert_ne same, AList.lookup_insert]
    · rw [Store.get, AList.lookup_insert]
  rcases stored with ⟨db, first, second⟩
  rcases means.parsed db (Option.isSome_of_eq_some first) (Option.isSome_of_eq_some second) with
    ⟨lp, lp', read, read', same, -⟩
  rw [readLinkProperty_of_named standard named first, Option.some.injEq] at read
  rw [readLinkProperty_of_named standard named.swap second, Option.some.injEq] at read'
  have spelled := LinkKey.seenBy_of_eq ownL ownR [] []
  rw [← read, ← read', spelled.1, spelled.2] at same
  apply distinct
  rw [Prod.mk.injEq]
  exact ⟨congrArg LinkKey.serviceL same, congrArg LinkKey.channelL same⟩

/-- A link means the same from both ends and in both spellings if and only if it is not one
between two channels of the same service. -/
theorem meansOneLink_iff (standard : config.Standard) (named : link.Named)
    (distinct : link.Distinct)
    (owns : config.fServiceName = link.serviceL ∨ config.fServiceName = link.serviceR) :
    config.MeansOneLink link ↔ link.serviceL ≠ link.serviceR := by
  constructor
  · intro means same
    rcases owns with own | own
    · exact not_meansOneLink standard named distinct own.symm (same.symm.trans own.symm) means
    · exact not_meansOneLink standard named distinct (same.trans own.symm) own.symm means
  · intro apart
    rcases owns with own | own
    · exact meansOneLink_of_near standard named own.symm
        (fun same => apart (own.symm.trans same.symm)) (Or.inl rfl)
    · exact meansOneLink_of_near standard named.swap own.symm
        (fun same => apart (same.trans own)) (Or.inr rfl)

/-- A link from a channel of the sampler to another one. -/
theorem selfLink_not_meansOneLink :
    ¬ ∀ (config : TopologyConfig) (link : LinkKey), config.Standard → link.Named →
      link.Distinct →
      (config.fServiceName = link.serviceL ∨ config.fServiceName = link.serviceR) →
        config.MeansOneLink link := by
  intro all
  have named : LinkKey.Named ⟨"Sampler".toList, ['a'], "Sampler".toList, ['b']⟩ :=
    ⟨by decide, by decide, by decide, by decide⟩
  have distinct : LinkKey.Distinct ⟨"Sampler".toList, ['a'], "Sampler".toList, ['b']⟩ := by
    intro same
    exact absurd (congrArg Prod.snd same) (by decide)
  exact not_meansOneLink sampler_standard named distinct rfl rfl
    (all sampler _ sampler_standard named distinct (Or.inl rfl))

/-- A link between the sampler and another service, with the sampler at the right end. -/
theorem samplerLink_meansOneLink :
    sampler.MeansOneLink ⟨"Filter".toList, ['a'], "Sampler".toList, ['a']⟩ := by
  have named : LinkKey.Named ⟨"Filter".toList, ['a'], "Sampler".toList, ['a']⟩ :=
    ⟨by decide, by decide, by decide, by decide⟩
  have distinct : LinkKey.Distinct ⟨"Filter".toList, ['a'], "Sampler".toList, ['a']⟩ := by
    intro same
    exact absurd (congrArg Prod.fst same) (by decide)
  exact (meansOneLink_iff sampler_standard named distinct (Or.inr rfl)).mpr (by decide)

end Ends

end TopologyConfig

end NestDaq.Topology
