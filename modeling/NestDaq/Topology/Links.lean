import NestDaq.Topology.Config

/-!
# Declared links

A link is declared by a key `<top>:topology:link:<service>:<channel>,<service>:<channel>`.
This module states which declared links one service reads with its two
patterns, and how the parser assigns the ends of each.
-/

namespace NestDaq.Topology

open NestDaq.Store
open NestDaq.Registry

/-- The two ends of a declared link, as they are spelled in its key. -/
structure LinkKey where
  serviceL : Text
  channelL : Text
  serviceR : Text
  channelR : Text
  deriving DecidableEq

namespace LinkKey

/-- `service:channel,service:channel`. -/
def pairName (link : LinkKey) : Text :=
  link.serviceL ++ ':' :: link.channelL ++ ',' :: link.serviceR ++ ':' :: link.channelR

/-- The part of every link key in front of the pair. -/
def keyPrefix : Text :=
  Text.join [topPrefix, topologyPrefix, linkPrefix, []] colon

/-- The key that declares the link. -/
def key (link : LinkKey) : Text :=
  keyPrefix ++ link.pairName

/-- The names of a link hold neither the separator nor a comma, and its
services no character with a meaning in patterns. -/
structure WellFormed (link : LinkKey) : Prop where
  serviceL : ':' ∉ link.serviceL ∧ ',' ∉ link.serviceL
  channelL : ':' ∉ link.channelL ∧ ',' ∉ link.channelL
  serviceR : ':' ∉ link.serviceR ∧ ',' ∉ link.serviceR
  channelR : ':' ∉ link.channelR ∧ ',' ∉ link.channelR
  plainL : Glob.Plain link.serviceL
  plainR : Glob.Plain link.serviceR

instance (link : LinkKey) : Decidable link.WellFormed :=
  decidable_of_iff
    ((':' ∉ link.serviceL ∧ ',' ∉ link.serviceL) ∧ (':' ∉ link.channelL ∧ ',' ∉ link.channelL) ∧
      (':' ∉ link.serviceR ∧ ',' ∉ link.serviceR) ∧ (':' ∉ link.channelR ∧ ',' ∉ link.channelR) ∧
      Glob.Plain link.serviceL ∧ Glob.Plain link.serviceR)
    ⟨fun ⟨sL, cL, sR, cR, pL, pR⟩ => ⟨sL, cL, sR, cR, pL, pR⟩,
      fun ⟨sL, cL, sR, cR, pL, pR⟩ => ⟨sL, cL, sR, cR, pL, pR⟩⟩

/-- The names of a link hold neither the separator nor a comma. -/
structure Named (link : LinkKey) : Prop where
  serviceL : ':' ∉ link.serviceL ∧ ',' ∉ link.serviceL
  channelL : ':' ∉ link.channelL ∧ ',' ∉ link.channelL
  serviceR : ':' ∉ link.serviceR ∧ ',' ∉ link.serviceR
  channelR : ':' ∉ link.channelR ∧ ',' ∉ link.channelR

theorem WellFormed.named {link : LinkKey} (wellFormed : link.WellFormed) : link.Named :=
  ⟨wellFormed.serviceL, wellFormed.channelL, wellFormed.serviceR, wellFormed.channelR⟩

/-- The link joins two ends, in either spelling. -/
def Joins (link : LinkKey) (near far : Text × Text) : Prop :=
  (near = (link.serviceL, link.channelL) ∧ far = (link.serviceR, link.channelR)) ∨
    (near = (link.serviceR, link.channelR) ∧ far = (link.serviceL, link.channelL))

theorem Joins.symm {link : LinkKey} {near far : Text × Text} (joins : link.Joins near far) :
    link.Joins far near := by
  rcases joins with ⟨nearEq, farEq⟩ | ⟨nearEq, farEq⟩
  · exact Or.inr ⟨farEq, nearEq⟩
  · exact Or.inl ⟨farEq, nearEq⟩

/-- The ends are recovered from the spelling. -/
theorem Named.pairName_injective {first second : LinkKey} (firstNamed : first.Named)
    (secondNamed : second.Named) (equal : first.pairName = second.pairName) : first = second := by
  obtain ⟨serviceL, channelL, serviceR, channelR⟩ := first
  obtain ⟨serviceL', channelL', serviceR', channelR'⟩ := second
  simp only [pairName, List.append_assoc, List.cons_append] at equal
  obtain ⟨rfl, afterServiceL⟩ := Text.append_separator_inj firstNamed.serviceL.1
    secondNamed.serviceL.1 equal
  obtain ⟨rfl, afterChannelL⟩ := Text.append_separator_inj firstNamed.channelL.2
    secondNamed.channelL.2 afterServiceL
  obtain ⟨rfl, rfl⟩ := Text.append_separator_inj firstNamed.serviceR.1
    secondNamed.serviceR.1 afterChannelL
  rfl

theorem pairName_injective {first second : LinkKey} (firstFormed : first.WellFormed)
    (secondFormed : second.WellFormed) (equal : first.pairName = second.pairName) :
    first = second :=
  firstFormed.named.pairName_injective secondFormed.named equal

/-- A service reads the links whose left service name begins with its own name
and those whose right service it is. -/
def ReadBy (link : LinkKey) (service : Text) : Prop :=
  service <+: link.serviceL ∨ link.serviceR = service

instance (link : LinkKey) (service : Text) : Decidable (link.ReadBy service) :=
  inferInstanceAs (Decidable (_ ∨ _))

/-- The ends of a link as a service that reads it records them. -/
def seenBy (link : LinkKey) (service options : Text) : LinkProperty :=
  if link.serviceL = service then
    ⟨link.serviceL, link.channelL, link.serviceR, link.channelR, options⟩
  else ⟨link.serviceR, link.channelR, link.serviceL, link.channelL, options⟩

end LinkKey

/-- The ends of a link property as a pair of the form `my,peer`. -/
def LinkProperty.spelling (lp : LinkProperty) : LinkKey :=
  ⟨lp.myService, lp.myChannel, lp.peerService, lp.peerChannel⟩

@[simp]
theorem LinkKey.spelling_seenBy (link : LinkKey) (service options : Text) :
    (link.seenBy service options).spelling =
      if link.serviceL = service then link
      else ⟨link.serviceR, link.channelR, link.serviceL, link.channelL⟩ := by
  unfold seenBy
  split <;> rfl

namespace TopologyConfig

variable {config : TopologyConfig}

theorem findIdx_comma {before after : Text} (free : ',' ∉ before) :
    (before ++ ',' :: after).findIdx? (· ∈ [',']) = some before.length := by
  induction before with
  | nil => simp [List.findIdx?_cons]
  | cons char before ih =>
      have differs : char ≠ ',' := fun equal => free (equal ▸ List.mem_cons_self)
      rw [List.cons_append, List.findIdx?_cons,
        ih fun member => free (List.mem_cons_of_mem _ member)]
      simp [differs]

/-- A search from the comma finds the separator of the left end, the search
from the end that of the right one, and the substrings between are the names. -/
theorem parseLink_of_named (standard : config.Standard) {link : LinkKey} (named : link.Named)
    (options : Text) :
    config.parseLink link.pairName options = link.seenBy config.fServiceName options := by
  obtain ⟨serviceL, channelL, serviceR, channelR⟩ := link
  have commaFree : ',' ∉ serviceL ++ ':' :: channelL := by
    simp [named.serviceL.2, named.channelL.2]
  have colonFree : ∀ {text : Text}, ':' ∉ text → ∀ char ∈ text, char ∉ colon := by
    intro text free char member isColon
    exact free ((List.mem_singleton.mp isColon) ▸ member)
  have pair : (⟨serviceL, channelL, serviceR, channelR⟩ : LinkKey).pairName =
      (serviceL ++ ':' :: channelL) ++ ',' :: (serviceR ++ ':' :: channelR) := by
    simp [LinkKey.pairName]
  have regroup : (serviceL ++ ':' :: channelL) ++ ',' :: (serviceR ++ ':' :: channelR) =
      ((serviceL ++ ':' :: channelL) ++ ',' :: serviceR) ++ ':' :: channelR := by
    simp
  have comma : ((serviceL ++ ':' :: channelL) ++ ',' :: (serviceR ++ ':' :: channelR)).findIdx?
      (· ∈ [',']) = _ := findIdx_comma commaFree
  have firstSep : Text.findLastOfUpTo
      ((serviceL ++ ':' :: channelL) ++ ',' :: (serviceR ++ ':' :: channelR)) colon
      (some (serviceL ++ ':' :: channelL).length) = some serviceL.length := by
    have upToComma : ((serviceL ++ ':' :: channelL) ++ ',' :: (serviceR ++ ':' :: channelR)).take
        ((serviceL ++ ':' :: channelL).length + 1) = serviceL ++ ':' :: (channelL ++ [',']) := by
      rw [List.take_length_add_append]
      simp
    rw [Text.findLastOfUpTo, upToComma]
    exact Text.findLastOf_append_cons (by simp [colon])
      (colonFree (by simp [named.channelL.1]))
  have secondSep : Text.findLastOf
      ((serviceL ++ ':' :: channelL) ++ ',' :: (serviceR ++ ':' :: channelR)) colon =
      some ((serviceL ++ ':' :: channelL) ++ ',' :: serviceR).length := by
    rw [regroup]
    exact Text.findLastOf_append_cons (by simp [colon]) (colonFree named.channelR.1)
  have nameL := Text.substrBetween_separators serviceL channelL
    (serviceR ++ ':' :: channelR) ':' ','
  have nameR := Text.substrBetween_separators
    (serviceL ++ ':' :: channelL) serviceR channelR ',' ':'
  have lastName := Text.substrFrom_separator
    ((serviceL ++ ':' :: channelL) ++ ',' :: serviceR) channelR ':'
  rw [← regroup] at nameR lastName
  rw [pair]
  simp only [parseLink, standard.separator, comma, firstSep, secondSep, Text.after, nameL, nameR,
    lastName]
  simp [Text.substrTo, nearEnds, LinkKey.seenBy]
  split <;> rfl

end TopologyConfig

/-! ## The links a service reads -/

/-- A usable service name: no separator, comma, or character with a meaning in
patterns. -/
structure ServiceName (service : Text) : Prop where
  part : ':' ∉ service
  commaFree : ',' ∉ service
  plain : Glob.Plain service

/-- The link keys of a registry, which are those with a comma, are those of the
given well-formed links. -/
structure Declares (db : Db) (links : List LinkKey) : Prop where
  wellFormed : ∀ link ∈ links, link.WellFormed
  stored : ∀ link ∈ links, ∃ options, db.lookup link.key = some (.string options)
  only : ∀ rest, LinkKey.keyPrefix ++ rest ∈ db → ',' ∈ rest →
    ∃ link ∈ links, link.pairName = rest

/-- What stands behind the common start of some keys is checked on all keys of a
registry. -/
theorem name_of_keys {db : Db} {start channel : Text}
    (names : ∀ key ∈ db.keys, start <+: key → Name (key.drop start.length))
    (stored : start ++ channel ∈ db) : Name channel := by
  have isName := names _ (AList.mem_keys.mp stored) (List.prefix_append _ _)
  rwa [List.drop_left] at isName

/-- So is what a registry declares. -/
theorem declares_of_keys {db : Db} {links : List LinkKey}
    (wellFormed : ∀ link ∈ links, link.WellFormed)
    (stored : ∀ link ∈ links, (get db link.key).isSome)
    (only : ∀ key ∈ db.keys, LinkKey.keyPrefix <+: key → key ∈ links.map LinkKey.key) :
    Declares db links := by
  refine ⟨wellFormed, fun link member => ?_, fun rest member _ => ?_⟩
  · obtain ⟨options, found⟩ := Option.isSome_iff_exists.mp (stored link member)
    refine ⟨options, ?_⟩
    simp only [Store.get] at found
    split at found
    · rename_i text lookup
      rw [lookup, Option.some.inj found]
    · cases found
  · obtain ⟨link, linkMem, same⟩ := List.mem_map.mp
      (only _ (AList.mem_keys.mp member) (List.prefix_append _ _))
    exact ⟨link, linkMem, List.append_cancel_left same⟩

theorem LinkKey.WellFormed.serviceNameL {link : LinkKey} (wellFormed : link.WellFormed) :
    ServiceName link.serviceL :=
  ⟨wellFormed.serviceL.1, wellFormed.serviceL.2, wellFormed.plainL⟩

theorem LinkKey.WellFormed.serviceNameR {link : LinkKey} (wellFormed : link.WellFormed) :
    ServiceName link.serviceR :=
  ⟨wellFormed.serviceR.1, wellFormed.serviceR.2, wellFormed.plainR⟩

theorem LinkKey.plain_keyPrefix : Glob.Plain LinkKey.keyPrefix := by
  decide

/-- The spelling holds one comma. -/
theorem LinkKey.count_comma_pairName {link : LinkKey} (wellFormed : link.WellFormed) :
    link.pairName.count ',' = 1 := by
  simp [LinkKey.pairName, List.count_eq_zero_of_not_mem wellFormed.serviceL.2,
    List.count_eq_zero_of_not_mem wellFormed.channelL.2,
    List.count_eq_zero_of_not_mem wellFormed.serviceR.2,
    List.count_eq_zero_of_not_mem wellFormed.channelR.2]

/-- The pattern for the left end accepts the links whose left service name
begins with the name: it has no separator behind the name. -/
theorem stringmatch_near {service : Text} (name : ServiceName service) (link : LinkKey) :
    Glob.stringmatch
        (LinkKey.keyPrefix ++ service ++ '*' :: ',' :: '*' :: ':' :: ['*']) link.key ↔
      service <+: link.serviceL := by
  rw [Glob.stringmatch_plain_append (LinkKey.plain_keyPrefix.append name.plain)]
  constructor
  · rintro ⟨rest, keyEq, -⟩
    rw [LinkKey.key, List.append_assoc, List.append_right_inj] at keyEq
    have equal : service ++ rest =
        link.serviceL ++ ':' ::
          (link.channelL ++ ',' :: link.serviceR ++ ':' :: link.channelR) := by
      simpa [LinkKey.pairName] using keyEq.symm
    exact Text.prefix_of_append_separator name.part equal
  · rintro ⟨more, serviceEq⟩
    refine ⟨more ++ ':' :: link.channelL ++ ',' :: (link.serviceR ++ ':' :: link.channelR), ?_, ?_⟩
    · simp [LinkKey.key, LinkKey.pairName, ← serviceEq]
    · rw [Glob.stringmatch_star_cons (by decide)]
      refine ⟨more ++ ':' :: link.channelL, link.serviceR ++ ':' :: link.channelR, rfl, ?_⟩
      rw [Glob.stringmatch_star_cons (by decide)]
      exact ⟨link.serviceR, link.channelR, rfl, Glob.stringmatch_anyText _⟩

/-- The pattern for the right end accepts the links whose right service is the
named one. -/
theorem stringmatch_far {service : Text} (name : ServiceName service) {link : LinkKey}
    (wellFormed : link.WellFormed) :
    Glob.stringmatch
        (LinkKey.keyPrefix ++ '*' :: ':' :: '*' :: ',' :: (service ++ ':' :: ['*'])) link.key ↔
      link.serviceR = service := by
  have plainService : Glob.Plain (service ++ [':']) := name.plain.append (by decide)
  have pattern : service ++ ':' :: ['*'] = (service ++ [':']) ++ ['*'] := by simp
  rw [Glob.stringmatch_plain_append LinkKey.plain_keyPrefix]
  constructor
  · rintro ⟨rest, keyEq, accept⟩
    rw [LinkKey.key, List.append_right_inj] at keyEq
    obtain ⟨before, after, rfl, afterColon⟩ :=
      (Glob.stringmatch_star_cons (by decide) _ _).mp accept
    obtain ⟨between, tail, rfl, afterComma⟩ :=
      (Glob.stringmatch_star_cons (by decide) _ _).mp afterColon
    rw [pattern] at afterComma
    obtain ⟨channel, rfl, -⟩ := (Glob.stringmatch_plain_append plainService _ _).mp afterComma
    -- The comma the pattern found is the only one, so both halves agree.
    have commas := LinkKey.count_comma_pairName wellFormed
    rw [keyEq] at commas
    have leftFree : ',' ∉ before ++ ':' :: between := by
      intro member
      have positive := List.count_pos_iff.mpr member
      have colonOther : (':' == ',') = false := by decide
      simp only [List.count_append, List.count_cons, beq_self_eq_true, colonOther, if_true,
        Bool.false_eq_true, if_false] at commas positive
      omega
    have halves : (link.serviceL ++ ':' :: link.channelL) ++
        ',' :: (link.serviceR ++ ':' :: link.channelR) =
        (before ++ ':' :: between) ++ ',' :: (service ++ ':' :: channel) := by
      simpa [LinkKey.pairName] using keyEq
    obtain ⟨-, right⟩ := Text.append_separator_inj
      (by simp [wellFormed.serviceL.2, wellFormed.channelL.2]) leftFree halves
    exact (Text.append_separator_inj wellFormed.serviceR.1 name.part right).1
  · rintro rfl
    refine ⟨link.pairName, rfl, ?_⟩
    rw [Glob.stringmatch_star_cons (by decide)]
    refine ⟨link.serviceL, link.channelL ++ ',' :: (link.serviceR ++ ':' :: link.channelR),
      by simp [LinkKey.pairName], ?_⟩
    rw [Glob.stringmatch_star_cons (by decide)]
    refine ⟨link.channelL, link.serviceR ++ ':' :: link.channelR, rfl, ?_⟩
    rw [pattern, Glob.stringmatch_plain_append plainService]
    exact ⟨link.channelR, by simp, Glob.stringmatch_anyText _⟩

/-! ## The recorded links -/

/-- The recorded links of a service: each is stored under its spelling and has
the ends of a declared link that the service reads. -/
def Recorded (service : Text) (links : List LinkKey) (fLinks : Links) : Prop :=
  ∀ name lp, fLinks.lookup name = some lp →
    ∃ link ∈ links, link.ReadBy service ∧ name = (link.seenBy service []).spelling.pairName ∧
      lp = link.seenBy service lp.options

theorem recorded_empty (service : Text) (links : List LinkKey) : Recorded service links ∅ := by
  intro name lp found
  simp at found

theorem LinkKey.WellFormed.spelling_seenBy {link : LinkKey} (wellFormed : link.WellFormed)
    (service options : Text) : (link.seenBy service options).spelling.WellFormed := by
  rw [LinkKey.spelling_seenBy]
  split
  · exact wellFormed
  · exact ⟨wellFormed.serviceR, wellFormed.channelR, wellFormed.serviceL, wellFormed.channelL,
      wellFormed.plainR, wellFormed.plainL⟩

/-- A link property is determined by its spelling and its options. -/
theorem LinkProperty.ext_spelling {first second : LinkProperty}
    (sameSpelling : first.spelling = second.spelling)
    (sameOptions : first.options = second.options) :
    first = second := by
  cases first
  cases second
  simp_all [LinkProperty.spelling]

/-- A recorded name of a declared link leads to the ends of that link. -/
theorem Recorded.lookup {service : Text} {links : List LinkKey} {fLinks : Links}
    (recorded : Recorded service links fLinks) (declared : ∀ link ∈ links, link.WellFormed)
    {link : LinkKey} (member : link ∈ links)
    (known : (link.seenBy service []).spelling.pairName ∈ fLinks) :
    ∃ options, fLinks.lookup (link.seenBy service []).spelling.pairName =
      some (link.seenBy service options) := by
  obtain ⟨lp, found⟩ := Option.isSome_iff_exists.mp (AList.lookup_isSome.mpr known)
  obtain ⟨link', member', -, nameEq, lpEq⟩ := recorded _ _ found
  have sameSpelling := LinkKey.pairName_injective
    ((declared link member).spelling_seenBy service [])
    ((declared link' member').spelling_seenBy service []) nameEq
  refine ⟨lp.options, ?_⟩
  rw [found, lpEq]
  apply congrArg some
  apply LinkProperty.ext_spelling
  · simpa using sameSpelling.symm
  · simp [LinkKey.seenBy]
    split <;> split <;> rfl

namespace TopologyConfig

variable {config : TopologyConfig} {db : Db} {links : List LinkKey}

/-- `ReadLinks` returns the keys of the declared links that the service reads. -/
theorem mem_readLinks (standard : config.Standard) (name : ServiceName config.fServiceName)
    (declares : Declares db links) {key : Text} :
    key ∈ config.readLinks db ↔
      ∃ link ∈ links, link.ReadBy config.fServiceName ∧ key = link.key := by
  have near : config.key [config.fTopPrefix, topologyPrefix, linkPrefix,
      config.fServiceName ++ "*,*".toList, ['*']] =
      LinkKey.keyPrefix ++ config.fServiceName ++ '*' :: ',' :: '*' :: ':' :: ['*'] := by
    simp [TopologyConfig.key, LinkKey.keyPrefix, standard.top, standard.separator, colon]
  have far : config.key [config.fTopPrefix, topologyPrefix, linkPrefix, ['*'],
      "*,".toList ++ config.fServiceName, ['*']] =
      LinkKey.keyPrefix ++ '*' :: ':' :: '*' :: ',' :: (config.fServiceName ++ ':' :: ['*']) := by
    simp [TopologyConfig.key, LinkKey.keyPrefix, standard.top, standard.separator, colon]
  simp only [readLinks, near, far, List.mem_union_iff, mem_scan]
  have simple {before after : Text} (beforePlain : ∀ char ∈ before, char = '*' ∨
    char ∉ Glob.special)
      (afterPlain : ∀ char ∈ after, char = '*' ∨ char ∉ Glob.special) :
      ∀ char ∈ before ++ ',' :: after, char = '*' ∨ char ∉ Glob.special := by
    intro char member
    rcases List.mem_append.mp member with inBefore | member
    · exact beforePlain char inBefore
    · rcases List.mem_cons.mp member with rfl | inAfter
      · exact Or.inr (by decide)
      · exact afterPlain char inAfter
  have declared (member : key ∈ db) {before after : Text}
      (beforePlain : ∀ char ∈ before, char = '*' ∨ char ∉ Glob.special)
      (afterPlain : ∀ char ∈ after, char = '*' ∨ char ∉ Glob.special)
      (accept : Glob.stringmatch (LinkKey.keyPrefix ++ (before ++ ',' :: after)) key) :
      ∃ link ∈ links, key = link.key := by
    obtain ⟨rest, rfl, matched⟩ :=
      (Glob.stringmatch_plain_append LinkKey.plain_keyPrefix _ _).mp accept
    have comma : ',' ∈ rest := Glob.mem_of_stringmatch (simple beforePlain afterPlain)
      (List.mem_append_right _ List.mem_cons_self) (by decide) matched
    obtain ⟨link, linkMem, rfl⟩ := declares.only rest member comma
    exact ⟨link, linkMem, rfl⟩
  have starAfter {text : Text} (plain : Glob.Plain text) {tail : Text}
      (tailSimple : ∀ char ∈ tail, char = '*' ∨ char ∉ Glob.special) :
      ∀ char ∈ text ++ tail, char = '*' ∨ char ∉ Glob.special := by
    intro char member
    rcases List.mem_append.mp member with inText | inTail
    · exact Or.inr (plain char inText)
    · exact tailSimple char inTail
  constructor
  · rintro (⟨member, accept⟩ | ⟨member, accept⟩)
    · obtain ⟨link, linkMem, rfl⟩ := @declared member (config.fServiceName ++ ['*']) ['*', ':', '*']
        (starAfter name.plain (by decide)) (by decide) (by simpa using accept)
      exact ⟨link, linkMem, Or.inl ((stringmatch_near name link).mp accept), rfl⟩
    · obtain ⟨link, linkMem, rfl⟩ := @declared member ['*', ':', '*']
        (config.fServiceName ++ [':', '*']) (by decide) (starAfter name.plain (by decide)) accept
      exact ⟨link, linkMem,
        Or.inr ((stringmatch_far name (declares.wellFormed link linkMem)).mp accept), rfl⟩
  · rintro ⟨link, linkMem, readBy, rfl⟩
    obtain ⟨options, stored⟩ := declares.stored link linkMem
    have member : link.key ∈ db := AList.lookup_isSome.mp (by rw [stored]; rfl)
    rcases readBy with near | far
    · exact Or.inl ⟨member, (stringmatch_near name link).mpr near⟩
    · exact Or.inr ⟨member, (stringmatch_far name (declares.wellFormed link linkMem)).mpr far⟩

/-! ## Collecting the links -/

theorem linkName_seenBy (standard : config.Standard) (link : LinkKey) (service options : Text) :
    config.linkName (link.seenBy service options) =
      (link.seenBy service []).spelling.pairName := by
  rw [show (link.seenBy service []).spelling = (link.seenBy service options).spelling by simp]
  simp [linkName, standard.separator, LinkKey.pairName, LinkProperty.spelling, colon]

theorem addLink_eq (config : TopologyConfig) (lp : LinkProperty) :
    ∃ options, config.addLink lp =
      { config with
        fLinks := config.fLinks.insert (config.linkName lp)
          { (config.fLinks.lookup (config.linkName lp)).getD lp with options := options } } := by
  simp only [addLink]
  cases config.fLinks.lookup (config.linkName lp) with
  | none => exact ⟨lp.options, rfl⟩
  | some known => exact ⟨known.options ++ [','] ++ lp.options, rfl⟩

/-- Recording a read link keeps the recorded links sound, keeps the names
already recorded and adds its own. -/
theorem addLink_recorded (standard : config.Standard) {link : LinkKey} (member : link ∈ links)
    (readBy : link.ReadBy config.fServiceName) (options : Text)
    (recorded : Recorded config.fServiceName links config.fLinks) :
    ∃ fLinks, config.addLink (link.seenBy config.fServiceName options) =
        { config with fLinks := fLinks } ∧
      Recorded config.fServiceName links fLinks ∧
      ∀ name, name ∈ fLinks ↔
        name = (link.seenBy config.fServiceName []).spelling.pairName ∨ name ∈ config.fLinks := by
  obtain ⟨options', added⟩ := addLink_eq config (link.seenBy config.fServiceName options)
  rw [linkName_seenBy standard] at added
  refine ⟨_, added, ?_, fun name => AList.mem_insert _⟩
  intro name lp found
  by_cases same : name = (link.seenBy config.fServiceName []).spelling.pairName
  · subst same
    rw [AList.lookup_insert] at found
    cases found
    cases known : config.fLinks.lookup (link.seenBy config.fServiceName []).spelling.pairName with
    | none => exact ⟨link, member, readBy, rfl, by simp [LinkKey.seenBy]; split <;> rfl⟩
    | some lp' =>
        obtain ⟨link', member', readBy', nameEq, lpEq⟩ := recorded _ _ known
        refine ⟨link', member', readBy', nameEq, ?_⟩
        rw [Option.getD_some, lpEq]
        simp [LinkKey.seenBy]
        split <;> rfl
  · rw [AList.lookup_insert_ne same] at found
    exact recorded name lp found

/-- The property read from the key of a stored link. -/
theorem readLinkProperty_of_named (standard : config.Standard) {link : LinkKey}
    (named : link.Named) {options : Text} (stored : get db link.key = some options) :
    config.readLinkProperty db link.key = some (link.seenBy config.fServiceName options) := by
  have before : config.key [config.fTopPrefix, topologyPrefix, linkPrefix, []] =
      LinkKey.keyPrefix := by
    rw [key, standard.top, standard.separator]
    rfl
  simp only [readLinkProperty, before]
  rw [LinkKey.key, show Text.substrFrom (LinkKey.keyPrefix ++ link.pairName)
    LinkKey.keyPrefix.length = link.pairName by simp [Text.substrFrom], ← LinkKey.key]
  rw [stored, Option.map_some, parseLink_of_named standard named]

theorem readLinkProperty_key (standard : config.Standard) {link : LinkKey}
    (wellFormed : link.WellFormed) {options : Text}
    (stored : db.lookup link.key = some (.string options)) :
    config.readLinkProperty db link.key = some (link.seenBy config.fServiceName options) :=
  readLinkProperty_of_named standard wellFormed.named (by simp [Store.get, stored])

/-- Reading the links of a service changes nothing but the recorded links; these
stay sound, and every link the service reads is among them. -/
theorem collectLinks_spec (standard : config.Standard) (name : ServiceName config.fServiceName)
    (declares : Declares db links) (recorded : Recorded config.fServiceName links config.fLinks) :
    ∃ fLinks, config.collectLinks db = some { config with fLinks := fLinks } ∧
      Recorded config.fServiceName links fLinks ∧
      ∀ link ∈ links, link.ReadBy config.fServiceName →
        (link.seenBy config.fServiceName []).spelling.pairName ∈ fLinks := by
  have fold (keys : List Text)
      (read : ∀ key ∈ keys, ∃ link ∈ links, link.ReadBy config.fServiceName ∧ key = link.key)
      (fLinks : Links) (recorded : Recorded config.fServiceName links fLinks) :
      ∃ fLinks',
        keys.foldlM (fun config link => (config.readLinkProperty db link).map config.addLink)
          { config with fLinks := fLinks } = some { config with fLinks := fLinks' } ∧
        Recorded config.fServiceName links fLinks' ∧
        ∀ link ∈ links, (link.seenBy config.fServiceName []).spelling.pairName ∈ fLinks ∨
            link.key ∈ keys →
          (link.seenBy config.fServiceName []).spelling.pairName ∈ fLinks' := by
    induction keys generalizing fLinks with
    | nil => exact ⟨fLinks, rfl, recorded, fun link _ known => by simpa using known⟩
    | cons key keys ih =>
        obtain ⟨link, member, readBy, rfl⟩ := read key List.mem_cons_self
        obtain ⟨options, stored⟩ := declares.stored link member
        have wellFormed := declares.wellFormed link member
        let current : TopologyConfig := { config with fLinks := fLinks }
        have standard' : current.Standard := ⟨standard.top, standard.separator⟩
        obtain ⟨added, addedEq, addedRecorded, addedMem⟩ :=
          addLink_recorded standard' member readBy options recorded
        obtain ⟨fLinks', folded, recorded', kept⟩ := ih
          (fun key inRest => read key (List.mem_cons_of_mem _ inRest)) added addedRecorded
        refine ⟨fLinks', ?_, recorded', ?_⟩
        · rw [List.foldlM_cons, show ({ config with fLinks := fLinks } : TopologyConfig) = current
            from rfl, readLinkProperty_key standard' wellFormed stored]
          simpa [addedEq] using folded
        · intro other otherMem known
          apply kept other otherMem
          rcases known with known | known
          · exact Or.inl ((addedMem _).mpr (Or.inr known))
          · rcases List.mem_cons.mp known with same | inRest
            · have sameLink := LinkKey.pairName_injective (declares.wellFormed other otherMem)
                wellFormed (List.append_cancel_left same)
              exact Or.inl ((addedMem _).mpr (Or.inl (by rw [sameLink])))
            · exact Or.inr inRest
  obtain ⟨fLinks, folded, recorded', kept⟩ := fold (config.readLinks db)
    (fun key => (mem_readLinks standard name declares).mp) config.fLinks recorded
  refine ⟨fLinks, folded, recorded', fun link member readBy => ?_⟩
  exact kept link member
    (Or.inr ((mem_readLinks standard name declares).mpr ⟨link, member, readBy, rfl⟩))

end TopologyConfig

end NestDaq.Topology
