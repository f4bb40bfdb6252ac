import NestDaq.Parameter.Data
import NestDaq.Store.Glob
import Mathlib.Data.List.AList

/-!
# Reading of parameters

`ReadParameters` takes four passes over the database: the hash of the group, the
hash of the instance, and the keys below the one and below the other. The order in
which it meets the fields of a hash and the keys of a scan is that of unordered
containers, and is given from outside.
-/

namespace NestDaq.Parameter

open Transition

variable {F : Type} (floating : Floating F)

/-- The type of the value that the text stands for. -/
def Assignment.kind (assignment : Assignment F) : Option Kind :=
  assignment.value.map Property.kind

/-- The assignment does not throw for a property of a type, or for none. -/
def Assignment.Fits : Assignment F → Option Kind → Prop
  | .replace _ _, _ => True
  | .renew _ value, kind => kind = none ∨ kind = some value.kind
  | .throw _, _ => False

/-- Every assignment finds a property of its type, if it asks for the type. -/
def Consistent : Option Kind → List (Assignment F) → Prop
  | _, [] => True
  | kind, assignment :: rest => assignment.Fits kind ∧ Consistent assignment.kind rest

/-- A floating point number is not within epsilon of a different one before it. -/
def Assignment.Distinct (assignment : Assignment F) (property : Option (Property F)) : Prop :=
  ∀ old new, property = some (.scalar (.float old)) →
    assignment.value = some (.scalar (.float new)) → floating.near old new → old = new

theorem Assignment.isSome_effect_iff (assignment : Assignment F) (property : Option (Property F)) :
    (assignment.effect floating property).isSome ↔
      assignment.Fits (property.map Property.kind) := by
  cases assignment with
  | replace name value => simp [effect, Fits]
  | throw name => simp [effect, Fits]
  | renew name value =>
      rcases property with _ | ⟨old⟩ | old
      · simp [effect, Fits, setPropertyFromString]
      · by_cases same : old.kind = value.kind <;>
          simp [effect, Fits, setPropertyFromString, Property.kind, same]
      · cases value <;> simp [effect, Fits, setPropertyFromString, Property.kind, Scalar.kind]

/-- Unless two numbers are near, the property becomes the value of the text. -/
theorem isNewValue_eq_false {old new : Scalar F} (same : isNewValue floating old new = false) :
    old = new ∨ ∃ x y, old = .float x ∧ new = .float y ∧ floating.near x y := by
  cases old <;> cases new <;> simp_all [isNewValue]

/-- What the property is after an assignment that does not throw. -/
theorem Assignment.effect_eq_some {assignment : Assignment F} {property : Option (Property F)}
    {after : Property F} (affected : assignment.effect floating property = some after) :
    assignment.value = some after ∨
      ∃ old new, property = some (.scalar (.float old)) ∧
        assignment.value = some (.scalar (.float new)) ∧ floating.near old new ∧
        after = .scalar (.float old) := by
  cases assignment with
  | replace name value => exact Or.inl affected
  | throw name => cases affected
  | renew name value =>
      rcases property with _ | ⟨old⟩ | old
      · exact Or.inl affected
      · simp only [effect, setPropertyFromString] at affected
        split_ifs at affected with same isNew
        · exact Or.inl affected
        · obtain rfl := Option.some.inj affected
          rcases isNewValue_eq_false floating (Bool.eq_false_iff.mpr isNew) with
            rfl | ⟨x, y, rfl, rfl, near⟩
          · exact Or.inl rfl
          · exact Or.inr ⟨x, y, rfl, rfl, near, rfl⟩
      · cases affected

/-- The property becomes the value of the text exactly if no other number is near. -/
theorem Assignment.value_eq_iff {assignment : Assignment F} {property : Option (Property F)}
    {after : Property F} (affected : assignment.effect floating property = some after) :
    assignment.value = some after ↔ assignment.Distinct floating property := by
  cases assignment with
  | throw name => cases affected
  | replace name value =>
      refine iff_of_true affected ?_
      rintro old new - equal
      cases equal
  | renew name value =>
      constructor
      · rintro equal old new rfl isNew near
        obtain rfl : Property.scalar value = after := Option.some.inj equal
        obtain rfl : value = .float new := by simpa [Assignment.value] using isNew
        simpa [effect, setPropertyFromString, isNewValue, near, Scalar.kind] using affected
      · intro distinct
        rcases effect_eq_some floating affected with same | ⟨old, new, rfl, equal, near, rfl⟩
        · exact same
        · rw [equal, distinct old new rfl equal near]

theorem Assignment.kind_of_effect {assignment : Assignment F} {property : Option (Property F)}
    {after : Property F} (affected : assignment.effect floating property = some after) :
    assignment.kind = some after.kind := by
  rcases effect_eq_some floating affected with same | ⟨old, new, -, equal, -, rfl⟩
  · rw [kind, same, Option.map_some]
  · rw [kind, equal]
    rfl

/-- A sequence of assignments of one parameter goes through exactly if it is consistent. -/
theorem run_follow_isSome_iff (property : Option (Property F)) (items : List (Assignment F)) :
    (run (follow (Assignment.effect floating)) property items).isSome ↔
      Consistent (property.map Property.kind) items := by
  induction items generalizing property with
  | nil => exact iff_of_true rfl True.intro
  | cons assignment rest ih =>
      have fits := assignment.isSome_effect_iff floating property
      rw [run, follow, Consistent]
      cases affected : assignment.effect floating property with
      | none =>
          rw [affected] at fits
          simp only [Option.map_none, Option.bind_none, Option.isSome_none, Bool.false_eq_true,
            false_iff, not_and]
          exact fun holds => absurd (fits.mpr holds) Bool.false_ne_true
      | some after =>
          rw [affected] at fits
          rw [Option.map_some, Option.bind_some, ih, Option.map_some,
            Assignment.kind_of_effect floating affected]
          exact (and_iff_right (fits.mp rfl)).symm

/-- A value that parameters are read from. -/
inductive Stored (F : Type) where
  | string (text : Text)
  | list (items : List Text)
  | hash (fields : AList fun _ : Text => Text)
  | set (members : Finset Text)
  | zset (members : Finmap fun _ : Text => F)
  deriving DecidableEq

/-- The keys of the database. -/
abbrev Content (F : Type) := AList fun _ : Text => Stored F

/-- The orders in which the keys found by a scan and the fields of a hash are met. -/
structure Enumeration (content : Content F) where
  keys : Text → List Text
  fields : Text → List (Text × Text)
  keys_perm : ∀ pattern, (keys pattern).Perm (content.keys.filter (Glob.stringmatch pattern))
  fields_perm : ∀ key hash, content.lookup key = some (.hash hash) →
    (fields key).Perm (hash.entries.map fun field => (field.1, field.2))

/-- The two members that the keys are made of. -/
structure Reader where
  fId : Text
  fSeparator : Text

namespace Reader

variable (reader : Reader) {content : Content F} (order : Enumeration content)

/-- `ParametersPrefix`. -/
def parametersPrefix : Text := "parameters".toList

/-- `fKey`. -/
def fKey : Text :=
  parametersPrefix ++ reader.fSeparator ++ reader.fId

/-- `fGroupKey`, empty if the id does not end in a number. -/
def fGroupKey : Text :=
  let lastHyphen := Text.findLastOf reader.fKey ['-']
  let idx := Text.substrFrom reader.fKey (Text.after lastHyphen)
  if idx.all Char.isDigit then Text.substrTo reader.fKey lastHyphen else []

/-- The part of a key behind the last separator. -/
def lastPart (key : Text) : Text :=
  Text.substrFrom key (Text.after (Text.findLastOf key reader.fSeparator))

/-- The pattern of the keys below a key. -/
def scanKey (key : Text) : Text :=
  key ++ reader.fSeparator ++ ['*']

/-- The front of the parameter names of a hash. -/
def hashPrefix (key : Text) : Text :=
  if reader.fKey = key ∨ reader.fGroupKey = key then [] else reader.lastPart key

/-- The parameter name of a field of a hash. -/
def fieldName (key field : Text) : Text :=
  if reader.hashPrefix key = [] then field
  else reader.hashPrefix key ++ reader.fSeparator ++ field

/-- `ReadHash`. -/
def readHash (key : Text) : List (Assignment F) :=
  match content.lookup key with
  | none => []
  | some (.hash _) => (order.fields key).flatMap fun field =>
      parse floating (reader.fieldName key field.1) field.2
  | some _ => [.throw key]

/-- `ReadString`, `ReadList`, `ReadHash`, `ReadSet` or `ReadZset`, by the type of the key. -/
def readKey (key : Text) : List (Assignment F) :=
  match content.lookup key with
  | none => []
  | some (.string text) => parse floating (reader.lastPart key) text
  | some (.list items) => if items = [] then [] else [.replace key (.vector items)]
  | some (.hash _) => reader.readHash floating order key
  | some (.set members) => if members = ∅ then [] else [.replace key (.set members)]
  | some (.zset members) =>
      if members.keys = ∅ then [] else [.replace key (.scores members)]

/-- The keys below a key, none for an empty key. -/
def readBelow (key : Text) : List (Assignment F) :=
  if key = [] then []
  else (order.keys (reader.scanKey key)).flatMap (reader.readKey floating order)

/-- The four passes of `ReadParameters`. -/
def passes : List (List (Assignment F)) :=
  [reader.readHash floating order reader.fGroupKey, reader.readHash floating order reader.fKey,
    reader.readBelow floating order reader.fGroupKey, reader.readBelow floating order reader.fKey]

/-- The assignments of `ReadParameters`, in their order. -/
def assignments : List (Assignment F) :=
  (reader.passes floating order).flatten

/-- `ReadParameters`: the properties it leaves, and whether it returns. -/
def readParameters (properties : AList fun _ : Text => Property F) :
    (AList fun _ : Text => Property F) × Bool :=
  attempt (update Assignment.name (Assignment.effect floating)) properties
    (reader.assignments floating order)

/-- The assignments of one parameter, in their order. -/
def assignmentsOf (name : Text) : List (Assignment F) :=
  updatesOf Assignment.name name (reader.assignments floating order)

variable {properties : AList fun _ : Text => Property F}

/-- `ReadParameters` returns exactly if the assignments of each parameter are consistent. -/
theorem readParameters_returns_iff :
    (reader.readParameters floating order properties).2 = true ↔
      ∀ name, Consistent ((properties.lookup name).map Property.kind)
        (reader.assignmentsOf floating order name) := by
  rw [readParameters, attempt_update_iff]
  exact forall_congr' fun name => run_follow_isSome_iff floating _ _

/-- The property that `ReadParameters` leaves is what the assignments of the
parameter make of the one before. -/
theorem lookup_readParameters
    (returns : (reader.readParameters floating order properties).2 = true) (name : Text) :
    run (follow (Assignment.effect floating)) (properties.lookup name)
        (reader.assignmentsOf floating order name) =
      some ((reader.readParameters floating order properties).1.lookup name) :=
  lookup_attempt_update returns name

end Reader

end NestDaq.Parameter
