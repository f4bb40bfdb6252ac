import NestDaq.Parameter.Reading

/-!
# Group and instance

A parameter is given for a group of instances and for one of them. The passes of
`ReadParameters` take all hashes of the two levels before the string keys, so the
value of the group is read last when it is a string key and that of the instance
a field of a hash.
-/

namespace NestDaq.Parameter

open Transition

section Lists

variable {α : Type*} {β : Type*}

theorem flatMap_eq_of_unique {items : List α} {item : α} {f : α → List β} (member : item ∈ items)
    (nodup : items.Nodup) (others : ∀ other ∈ items, other ≠ item → f other = []) :
    items.flatMap f = f item := by
  obtain ⟨before, after, rfl⟩ := List.append_of_mem member
  have apart := List.nodup_middle.mp nodup
  rw [List.nodup_cons, List.mem_append, not_or] at apart
  have front : before.flatMap f = [] := List.flatMap_eq_nil_iff.mpr fun other inFront =>
    others other (List.mem_append_left _ inFront) fun same => apart.1.1 (same ▸ inFront)
  have back : after.flatMap f = [] := List.flatMap_eq_nil_iff.mpr fun other inBack =>
    others other (List.mem_append_right _ (List.mem_cons_of_mem _ inBack))
      fun same => apart.1.2 (same ▸ inBack)
  rw [List.flatMap_append, List.flatMap_cons, front, back, List.nil_append, List.append_nil]

theorem updatesOf_flatMap {K : Type*} [DecidableEq K] (key : β → K) (name : K) (items : List α)
    (f : α → List β) :
    updatesOf key name (items.flatMap f) = items.flatMap fun item => updatesOf key name (f item) :=
  List.filter_flatMap

theorem updatesOf_eq_nil {K : Type*} [DecidableEq K] {key : β → K} {name : K} {items : List β}
    (others : ∀ item ∈ items, key item ≠ name) : updatesOf key name items = [] :=
  List.filter_eq_nil_iff.mpr fun item member => by simpa using others item member

theorem updatesOf_eq_self {K : Type*} [DecidableEq K] {key : β → K} {name : K} {items : List β}
    (all : ∀ item ∈ items, key item = name) : updatesOf key name items = items :=
  List.filter_eq_self.mpr fun item member => by simpa using all item member

end Lists

variable {F : Type} (floating : Floating F)

/-- The value a text is parsed to. -/
def parsed (name line : Text) : Option (Property F) :=
  (parse floating name line).head?.bind Assignment.value

/-- How a parameter is given at one level. -/
inductive Representation where
  | field
  | stringKey
  deriving DecidableEq

/-- The assignment found in the hash of a level. -/
def Representation.inHash {α : Type} : Representation → List α → List α
  | .field, items => items
  | .stringKey, _ => []

/-- The assignment found below the key of a level. -/
def Representation.inBelow {α : Type} : Representation → List α → List α
  | .field, _ => []
  | .stringKey, items => items

/-! ## Levels -/

namespace Reader

variable (reader : Reader) {content : Content F} (order : Enumeration content)

/-- A key below the key of a level, as `SCAN` finds it. -/
def Below (content : Content F) (level key : Text) : Prop :=
  key ∈ content ∧ Glob.stringmatch (reader.scanKey level) key

/-- The key assigns no value to the parameter. -/
def Silent (level name key : Text) : Prop :=
  reader.Below content level key →
    ∀ assignment ∈ reader.readKey floating order key, assignment.name ≠ name

/-- A parameter is given at a level, once, as a field of the hash or as a string key
below it. -/
def Given (level name text : Text) : Representation → Prop
  | .field =>
      (∃ hash, content.lookup level = some (.hash hash) ∧ hash.lookup name = some text) ∧
        ∀ key, reader.Silent floating order level name key
  | .stringKey =>
      (∃ key, reader.Below content level key ∧ content.lookup key = some (.string text) ∧
          reader.lastPart key = name ∧
          ∀ other, other ≠ key → reader.Silent floating order level name other) ∧
        ∀ assignment ∈ reader.readHash floating order level, assignment.name ≠ name

variable {reader order} {level name text : Text} {representation : Representation}

theorem mem_keys_scanKey {key : Text} :
    key ∈ order.keys (reader.scanKey level) ↔ reader.Below content level key := by
  rw [(order.keys_perm _).mem_iff, List.mem_filter]
  exact Iff.rfl

theorem nodup_keys_scanKey : (order.keys (reader.scanKey level)).Nodup :=
  (order.keys_perm _).nodup_iff.mpr (content.keys_nodup.filter _)

theorem nodup_fields {hash : AList fun _ : Text => Text}
    (stored : content.lookup level = some (.hash hash)) : (order.fields level).Nodup := by
  rw [(order.fields_perm level hash stored).nodup_iff]
  apply List.Nodup.of_map Prod.fst
  rw [List.map_map]
  exact hash.nodupKeys

theorem mem_fields {hash : AList fun _ : Text => Text} {field value : Text}
    (stored : content.lookup level = some (.hash hash)) :
    (field, value) ∈ order.fields level ↔ hash.lookup field = some value := by
  rw [(order.fields_perm level hash stored).mem_iff, List.mem_map]
  constructor
  · rintro ⟨entry, inHash, same⟩
    obtain ⟨rfl, rfl⟩ := Prod.mk.inj same
    exact AList.mem_lookup_iff.mpr inHash
  · intro found
    exact ⟨⟨field, value⟩, AList.mem_lookup_iff.mp found, rfl⟩

theorem fieldName_level (isLevel : reader.fKey = level ∨ reader.fGroupKey = level) (field : Text) :
    reader.fieldName level field = field := by
  simp [fieldName, hashPrefix, isLevel]

/-- The hash of a level assigns the parameter once or not at all. -/
theorem updatesOf_readHash (isLevel : reader.fKey = level ∨ reader.fGroupKey = level)
    (given : reader.Given floating order level name text representation) :
    updatesOf Assignment.name name (reader.readHash floating order level) =
      representation.inHash (parse floating name text) := by
  cases representation with
  | stringKey => exact updatesOf_eq_nil given.2
  | field =>
      obtain ⟨⟨hash, stored, found⟩, -⟩ := given
      have read : reader.readHash floating order level = (order.fields level).flatMap fun field =>
          parse floating field.1 field.2 := by
        simp only [readHash, stored, fieldName_level isLevel]
      rw [read, updatesOf_flatMap, flatMap_eq_of_unique ((mem_fields stored).mpr found)
        (nodup_fields stored)]
      · exact updatesOf_eq_self fun _ member => name_of_mem_parse floating member
      · intro other member differs
        apply updatesOf_eq_nil
        intro assignment parsed same
        rw [name_of_mem_parse floating parsed] at same
        subst same
        have value := Option.some.inj (found.symm.trans ((mem_fields stored).mp member))
        exact differs (Prod.ext rfl value.symm)

/-- The keys below a level assign the parameter once or not at all. -/
theorem updatesOf_readBelow (someLevel : level ≠ [])
    (given : reader.Given floating order level name text representation) :
    updatesOf Assignment.name name (reader.readBelow floating order level) =
      representation.inBelow (parse floating name text) := by
  rw [readBelow, if_neg someLevel, updatesOf_flatMap]
  cases representation with
  | field =>
      apply List.flatMap_eq_nil_iff.mpr
      intro key member
      exact updatesOf_eq_nil (given.2 key (mem_keys_scanKey.mp member))
  | stringKey =>
      obtain ⟨⟨key, below, stored, rfl, others⟩, -⟩ := given
      rw [flatMap_eq_of_unique (mem_keys_scanKey.mpr below) nodup_keys_scanKey]
      · simp only [readKey, stored]
        exact updatesOf_eq_self fun _ member => name_of_mem_parse floating member
      · intro other member differs
        exact updatesOf_eq_nil (others other differs (mem_keys_scanKey.mp member))

/-- The assignments of a parameter that is given at both levels. -/
theorem assignmentsOf_eq {groupText : Text} {groupRepresentation : Representation}
    (someGroup : reader.fGroupKey ≠ [])
    (group : reader.Given floating order reader.fGroupKey name groupText groupRepresentation)
    (inst : reader.Given floating order reader.fKey name text representation) :
    reader.assignmentsOf floating order name =
      groupRepresentation.inHash (parse floating name groupText) ++
        (representation.inHash (parse floating name text) ++
          (groupRepresentation.inBelow (parse floating name groupText) ++
            representation.inBelow (parse floating name text))) := by
  have someKey : reader.fKey ≠ [] := List.cons_ne_nil _ _
  simp only [assignmentsOf, assignments, passes, List.flatten_cons, List.flatten_nil,
    List.append_nil, updatesOf_append]
  rw [updatesOf_readHash floating (Or.inr rfl) group, updatesOf_readHash floating (Or.inl rfl) inst,
    updatesOf_readBelow floating someGroup group, updatesOf_readBelow floating someKey inst]

end Reader

/-- Both texts are numbers within epsilon of each other. -/
def Assignment.NearTo (first second : Assignment F) : Prop :=
  ∃ x y, first.value = some (.scalar (.float x)) ∧ second.value = some (.scalar (.float y)) ∧
    floating.near x y

/-- The value of the instance stays: it is read last, or the value of the group does not
differ, and no other number is within epsilon of it when it is read. -/
def Prevails (property : Option (Property F)) (group inst : Assignment F) :
    Representation → Representation → Prop
  | .stringKey, .field =>
      inst.Distinct floating property ∧ (group.value = inst.value ∨ inst.NearTo floating group)
  | _, _ => inst.Distinct floating (group.effect floating property)

theorem value_eq_iff_of_last {property : Option (Property F)} {first last : Assignment F}
    {after : Option (Property F)}
    (ran : run (follow (Assignment.effect floating)) property [first, last] = some after) :
    (∃ value, last.value = some value ∧ after = some value) ↔
      last.Distinct floating (first.effect floating property) := by
  obtain ⟨middle, stepped, rest⟩ := (run_cons_eq_some_iff _ _ _ _ _).mp ran
  obtain ⟨between, affected, rfl⟩ := Option.map_eq_some_iff.mp stepped
  obtain ⟨final, stepped, rest⟩ := (run_cons_eq_some_iff _ _ _ _ _).mp rest
  obtain ⟨value, lastAffected, rfl⟩ := Option.map_eq_some_iff.mp stepped
  obtain rfl := Option.some.inj rest
  rw [affected, ← last.value_eq_iff floating lastAffected]
  constructor
  · rintro ⟨other, equal, same⟩
    rw [equal, Option.some.inj same]
  · intro equal
    exact ⟨value, equal, rfl⟩

theorem value_eq_iff_of_first {property : Option (Property F)} {first last : Assignment F}
    {after : Option (Property F)}
    (ran : run (follow (Assignment.effect floating)) property [first, last] = some after) :
    (∃ value, first.value = some value ∧ after = some value) ↔
      first.Distinct floating property ∧
        (last.value = first.value ∨ first.NearTo floating last) := by
  obtain ⟨middle, stepped, rest⟩ := (run_cons_eq_some_iff _ _ _ _ _).mp ran
  obtain ⟨between, affected, rfl⟩ := Option.map_eq_some_iff.mp stepped
  obtain ⟨final, stepped, rest⟩ := (run_cons_eq_some_iff _ _ _ _ _).mp rest
  obtain ⟨value, lastAffected, rfl⟩ := Option.map_eq_some_iff.mp stepped
  obtain rfl := Option.some.inj rest
  have distinct := last.value_eq_iff floating lastAffected
  have lastResult := Assignment.effect_eq_some floating lastAffected
  rw [← first.value_eq_iff floating affected]
  constructor
  · rintro ⟨other, equal, same⟩
    obtain rfl := Option.some.inj same
    rcases lastResult with isLast | ⟨x, y, atX, isLast, near, rfl⟩
    · refine ⟨?_, Or.inl (isLast.trans equal.symm)⟩
      rcases Assignment.effect_eq_some floating affected with
        isFirst | ⟨old, new, -, isFirst, near, rfl⟩
      · exact isFirst
      · have sameValue := isLast.trans (equal.symm.trans isFirst)
        rw [isFirst, distinct.mp isLast old new rfl sameValue near]
    · exact ⟨equal.trans atX.symm, Or.inr ⟨x, y, equal, isLast, near⟩⟩
  · rintro ⟨equal, same | ⟨x, y, isFirst, isLast, near⟩⟩
    · refine ⟨between, equal, ?_⟩
      rcases lastResult with isLast | ⟨x, y, atX, -, -, rfl⟩
      · exact isLast.symm.trans (same.trans equal)
      · exact atX.symm
    · refine ⟨between, equal, ?_⟩
      have atX := equal.symm.trans isFirst
      rcases lastResult with isValue | ⟨x', y', atX', -, -, rfl⟩
      · obtain rfl := distinct.mp isValue x y atX isLast near
        exact isValue.symm.trans (isLast.trans atX.symm)
      · exact atX'.symm

namespace Reader

/-- The reader of an instance. -/
def ofInstance (service : Text) (index : Nat) (separator : Text) : Reader where
  fId := service ++ '-' :: Text.decimal index
  fSeparator := separator

variable {service separator : Text} {index : Nat}

theorem fKey_ofInstance :
    (ofInstance service index separator).fKey =
      parametersPrefix ++ separator ++ (service ++ '-' :: Text.decimal index) :=
  rfl

/-- The group of an instance is its service. -/
theorem fGroupKey_ofInstance :
    (ofInstance service index separator).fGroupKey = parametersPrefix ++ separator ++ service := by
  have free : ∀ char ∈ Text.decimal index, char ∉ ['-'] := by
    intro char member isHyphen
    obtain rfl := List.mem_singleton.mp isHyphen
    exact absurd (Text.isDigit_of_mem_decimal member) (by decide)
  have digits : (Text.decimal index).all Char.isDigit :=
    List.all_eq_true.mpr fun char member => Text.isDigit_of_mem_decimal member
  have split : (ofInstance service index separator).fKey =
      (parametersPrefix ++ separator ++ service) ++ '-' :: Text.decimal index := by
    simp [fKey_ofInstance]
  rw [fGroupKey, split, Text.findLastOf_append_cons List.mem_cons_self free, Text.after,
    Text.substrFrom_separator, if_pos digits, Text.substrTo_length]

variable {content : Content F} (order : Enumeration content)
  (properties : AList fun _ : Text => Property F)

/-- A parameter given for a service and for one of its instances has the value of the
instance after `ReadParameters` if and only if the assignments of each parameter are
consistent, the parameter is not passed over, and the value of the instance is read
last or not changed by that of the group. -/
theorem readParameters_instance_iff {name groupText instanceText : Text}
    {groupRepresentation instanceRepresentation : Representation}
    (group : (ofInstance service index separator).Given floating order
      (parametersPrefix ++ separator ++ service) name groupText groupRepresentation)
    (inst : (ofInstance service index separator).Given floating order
      (parametersPrefix ++ separator ++ (service ++ '-' :: Text.decimal index)) name instanceText
      instanceRepresentation) :
    (((ofInstance service index separator).readParameters floating order properties).2 = true ∧
        ∃ value, parsed floating name instanceText = some value ∧
          ((ofInstance service index separator).readParameters floating order
            properties).1.lookup name = some value) ↔
      (∀ other, Consistent ((properties.lookup other).map Property.kind)
          ((ofInstance service index separator).assignmentsOf floating order other)) ∧
        name ∉ reservedOptionsUint16 ∧
        ∀ groupAssignment ∈ parse floating name groupText,
          ∀ instanceAssignment ∈ parse floating name instanceText,
            Prevails floating (properties.lookup name) groupAssignment instanceAssignment
              groupRepresentation instanceRepresentation := by
  rw [readParameters_returns_iff]
  refine and_congr_right fun consistent => ?_
  have ran := lookup_readParameters floating _ order
    ((readParameters_returns_iff floating _ order).mpr consistent) name
  have someGroup : (ofInstance service index separator).fGroupKey ≠ [] := by
    rw [fGroupKey_ofInstance]
    exact List.cons_ne_nil _ _
  rw [← @fGroupKey_ofInstance service separator index] at group
  rw [assignmentsOf_eq floating someGroup group inst] at ran
  rcases parse_eq_nil_or_singleton floating name instanceText with none | ⟨own, -, single⟩
  · have passed := (parse_eq_nil_iff floating).mp none
    constructor
    · rintro ⟨value, isParsed, -⟩
      rw [parsed, none] at isParsed
      cases isParsed
    · rintro ⟨notPassed, -⟩
      exact absurd passed notPassed
  · have notPassed : name ∉ reservedOptionsUint16 := by
      intro passed
      have none := (@parse_eq_nil_iff _ floating name instanceText).mpr passed
      rw [single] at none
      cases none
    rcases parse_eq_nil_or_singleton floating name groupText with none | ⟨groups, -, groupSingle⟩
    · exact absurd ((parse_eq_nil_iff floating).mp none) notPassed
    · rw [single, groupSingle] at ran
      simp only [parsed, single, groupSingle, List.head?_cons, Option.bind_some, List.mem_singleton,
        forall_eq, notPassed, not_false_eq_true, true_and]
      cases groupRepresentation with
      | field =>
          cases instanceRepresentation with
          | field => exact value_eq_iff_of_last floating ran
          | stringKey => exact value_eq_iff_of_last floating ran
      | stringKey =>
          cases instanceRepresentation with
          | field => exact value_eq_iff_of_first floating ran
          | stringKey => exact value_eq_iff_of_last floating ran

end Reader

/-- An order of the keys and fields: that of the association lists. -/
def stored (content : Content F) : Enumeration content where
  keys pattern := content.keys.filter (Glob.stringmatch pattern)
  fields key :=
    match content.lookup key with
    | some (.hash hash) => hash.entries.map fun field => (field.1, field.2)
    | _ => []
  keys_perm _ := List.Perm.refl _
  fields_perm key hash found := by rw [found]

/-- Whole numbers in the place of floating point numbers. -/
def wholeNumbers : Floating Int where
  stod := Text.stoi
  near old new := old = new

/-- A gain for all amplifiers and one for the first. -/
def gains : Content Int :=
  (AList.singleton "parameters:Amplifier:gain".toList (.string ['1'])).insert
    "parameters:Amplifier-0".toList (.hash (AList.singleton "gain".toList ['2']))

def amplifier : Reader :=
  Reader.ofInstance "Amplifier".toList 0 [':']

theorem mem_gains {key : Text} (member : key ∈ gains) :
    key = "parameters:Amplifier-0".toList ∨ key = "parameters:Amplifier:gain".toList := by
  rw [gains, AList.mem_insert] at member
  exact member.imp_right fun inSingleton => List.mem_singleton.mp (AList.mem_keys.mp inSingleton)

theorem given_amplifiers :
    amplifier.Given wholeNumbers (stored gains) "parameters:Amplifier".toList "gain".toList ['1']
      .stringKey := by
  refine ⟨⟨"parameters:Amplifier:gain".toList, ⟨by decide +kernel, by decide +kernel⟩, rfl,
    by decide +kernel, ?_⟩, ?_⟩
  · rintro other differs ⟨member, found⟩
    rcases mem_gains member with rfl | rfl
    · exact absurd found (by decide +kernel)
    · exact absurd rfl differs
  · intro assignment member
    exact absurd member List.not_mem_nil

theorem given_amplifier :
    amplifier.Given wholeNumbers (stored gains)
      (Reader.parametersPrefix ++ [':'] ++ ("Amplifier".toList ++ '-' :: Text.decimal 0))
      "gain".toList ['2'] .field := by
  rw [show Reader.parametersPrefix ++ [':'] ++ ("Amplifier".toList ++ '-' :: Text.decimal 0) =
    "parameters:Amplifier-0".toList by decide +kernel]
  refine ⟨⟨_, rfl, rfl⟩, ?_⟩
  rintro key ⟨member, found⟩
  rcases mem_gains member with rfl | rfl <;> exact absurd found (by decide +kernel)

/-- No property is set before. -/
def noProperties : AList fun _ : Text => Property Int :=
  ∅

instance decidableFits {F : Type} : (assignment : Assignment F) → (kind : Option Kind) →
    Decidable (assignment.Fits kind)
  | .replace _ _, _ => .isTrue trivial
  | .renew _ _, _ => inferInstanceAs (Decidable (_ ∨ _))
  | .throw _, _ => .isFalse id

instance decidableConsistent {F : Type} : (kind : Option Kind) → (rest : List (Assignment F)) →
    Decidable (Consistent kind rest)
  | _, [] => .isTrue trivial
  | kind, assignment :: rest =>
      have := decidableConsistent assignment.kind rest
      inferInstanceAs (Decidable (assignment.Fits kind ∧ Consistent assignment.kind rest))

/-- A gain for all amplifiers and one for the first, both in hashes. -/
def hashedGains : Content Int :=
  (AList.singleton "parameters:Amplifier".toList
    (.hash (AList.singleton "gain".toList ['1']))).insert
    "parameters:Amplifier-0".toList (.hash (AList.singleton "gain".toList ['2']))

theorem given_hashedGains {level text : Text}
    (isField : (hashedGains.lookup level).any fun
      | .hash hash => hash.lookup "gain".toList = some text
      | _ => false)
    (apart : ∀ key ∈ hashedGains.keys, ¬ Glob.stringmatch (amplifier.scanKey level) key) :
    amplifier.Given wholeNumbers (stored hashedGains) level "gain".toList text .field := by
  rcases (Option.any_eq_true _ _).mp isField with ⟨value, found, holds⟩
  refine ⟨?_, fun key below => absurd below.2 (apart key (AList.mem_keys.mp below.1))⟩
  cases value with
  | hash hash => exact ⟨hash, found, of_decide_eq_true holds⟩
  | _ => cases holds

/-- Where both gains are fields, the amplifier has the one of its own. -/
theorem amplifier_instance :
    (amplifier.readParameters wholeNumbers (stored hashedGains) noProperties).2 = true ∧
      ∃ value, parsed wholeNumbers "gain".toList ['2'] = some value ∧
        (amplifier.readParameters wholeNumbers (stored hashedGains) noProperties).1.lookup
          "gain".toList = some value := by
  have names : ∀ assignment ∈ amplifier.assignments wholeNumbers (stored hashedGains),
      assignment.name = "gain".toList := by
    decide +kernel
  have group : amplifier.Given wholeNumbers (stored hashedGains) "parameters:Amplifier".toList
      "gain".toList ['1'] .field :=
    given_hashedGains (by decide +kernel) (by decide +kernel)
  have own : amplifier.Given wholeNumbers (stored hashedGains)
      (Reader.parametersPrefix ++ [':'] ++ ("Amplifier".toList ++ '-' :: Text.decimal 0))
      "gain".toList ['2'] .field :=
    given_hashedGains (by decide +kernel) (by decide +kernel)
  apply (Reader.readParameters_instance_iff wholeNumbers (stored hashedGains) noProperties
    group own).mpr
  refine ⟨fun other => ?_, by decide, fun groupAssignment isGroup _ _ old new isFloat => ?_⟩
  · by_cases isGain : "gain".toList = other
    · subst isGain
      decide +kernel
    · rw [Reader.assignmentsOf, updatesOf_eq_nil]
      · trivial
      · intro assignment member isOther
        exact isGain ((names assignment member).symm.trans isOther)
  · obtain rfl := List.mem_singleton.mp isGroup
    cases isFloat

/-- The gain of the group is read behind that of the instance, and stays. -/
theorem amplifier_not_instance :
    amplifier.Given wholeNumbers (stored gains) "parameters:Amplifier".toList "gain".toList ['1']
        .stringKey ∧
      amplifier.Given wholeNumbers (stored gains)
        (Reader.parametersPrefix ++ [':'] ++ ("Amplifier".toList ++ '-' :: Text.decimal 0))
        "gain".toList ['2'] .field ∧
      ¬ ((amplifier.readParameters wholeNumbers (stored gains) noProperties).2 = true ∧
        ∃ value, parsed wholeNumbers "gain".toList ['2'] = some value ∧
          (amplifier.readParameters wholeNumbers (stored gains) noProperties).1.lookup
            "gain".toList = some value) := by
  refine ⟨given_amplifiers, given_amplifier, ?_⟩
  rintro ⟨-, value, isParsed, found⟩
  have own : parsed wholeNumbers "gain".toList ['2'] = some (.scalar (.string ['2'])) := rfl
  have groups : (amplifier.readParameters wholeNumbers (stored gains) noProperties).1.lookup
      "gain".toList = some (.scalar (.string ['1'])) := by decide +kernel
  rw [own] at isParsed
  rw [groups, ← isParsed] at found
  simp at found

end NestDaq.Parameter
