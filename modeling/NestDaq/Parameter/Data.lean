import NestDaq.Text.Search
import NestDaq.Text.Split
import NestDaq.Transition.Update
import Mathlib.Data.Finmap

/-!
# Parameters

A parameter is a text in the database that becomes a property of the device. Its
name and its text decide the type: the options of the framework have types of
their own, a text with a comma is an array, one with a comma and an equal sign a
map, and any other a string. The floating point numbers of the platform and their
conversion are taken as given.
-/

namespace NestDaq

namespace Text

/-- `std::stoll`: `none` where it throws, without digits or outside of 64 bits. -/
def stoll (text : Text) : Option Int :=
  match text.dropWhile isSpace with
  | '-' :: rest => (leadingNat rest).bind fun n => if n ≤ 2 ^ 63 then some (-(n : Int)) else none
  | '+' :: rest => (leadingNat rest).bind fun n => if n < 2 ^ 63 then some (n : Int) else none
  | rest => (leadingNat rest).bind fun n => if n < 2 ^ 63 then some (n : Int) else none

/-- `std::stoull`: a number behind a minus sign is negated modulo `2 ^ 64`. -/
def stoull (text : Text) : Option Nat :=
  match text.dropWhile isSpace with
  | '-' :: rest =>
      (leadingNat rest).bind fun n => if n < 2 ^ 64 then some ((2 ^ 64 - n) % 2 ^ 64) else none
  | '+' :: rest => (leadingNat rest).bind fun n => if n < 2 ^ 64 then some n else none
  | rest => (leadingNat rest).bind fun n => if n < 2 ^ 64 then some n else none

end Text

namespace Parameter

open Transition

/-- What the plugin knows of `float`: the conversion of a text by `std::stod`, which
throws for some, and whether the difference of two numbers is not greater than epsilon. -/
structure Floating (F : Type) where
  stod : Text → Option F
  near : F → F → Bool

/-- The types of properties that are set from a text, if they differ from what is there. -/
inductive Scalar (F : Type) where
  | string (text : Text)
  | int (n : Int)
  | size (n : Nat)
  | bool (flag : Bool)
  | float (x : F)
  deriving DecidableEq

/-- The types of properties that are set in any case. -/
inductive Container (F : Type) where
  | vector (items : List Text)
  | map (fields : Finmap fun _ : Text => Text)
  | set (members : Finset Text)
  | scores (members : Finmap fun _ : Text => F)
  deriving DecidableEq

/-- A property of the device. -/
inductive Property (F : Type) where
  | scalar (value : Scalar F)
  | container (value : Container F)
  deriving DecidableEq

/-- The type of a property, as far as `GetProperty` asks for it. -/
inductive Kind where
  | string | int | size | bool | float | container
  deriving DecidableEq

def Scalar.kind {F : Type} : Scalar F → Kind
  | .string _ => .string
  | .int _ => .int
  | .size _ => .size
  | .bool _ => .bool
  | .float _ => .float

def Property.kind {F : Type} : Property F → Kind
  | .scalar value => value.kind
  | .container _ => .container

/-- What the plugin does with one parameter. -/
inductive Assignment (F : Type) where
  /-- `SetProperty`. -/
  | replace (name : Text) (value : Container F)
  /-- `SetPropertyFromString` with the value of the text. -/
  | renew (name : Text) (value : Scalar F)
  /-- A number is missing in the text, or the key holds another type. -/
  | throw (name : Text)

variable {F : Type} (floating : Floating F)

def Assignment.name : Assignment F → Text
  | .replace name _ => name
  | .renew name _ => name
  | .throw name => name

/-- The value that the text stands for. -/
def Assignment.value : Assignment F → Option (Property F)
  | .replace _ value => some (.container value)
  | .renew _ value => some (.scalar value)
  | .throw _ => none

/-- `isNewValue`, for a property of the same type. -/
def isNewValue : Scalar F → Scalar F → Bool
  | .string old, .string new => old ≠ new
  | .int old, .int new => old ≠ new
  | .size old, .size new => old ≠ new
  | .bool old, .bool new => old ≠ new
  | .float old, .float new => !floating.near old new
  | _, _ => true

/-- `SetPropertyFromString`: `GetProperty` throws for a property of another type. -/
def setPropertyFromString (new : Scalar F) : Option (Property F) → Option (Property F)
  | none => some (.scalar new)
  | some (.container _) => none
  | some (.scalar old) =>
      if old.kind = new.kind then
        some (.scalar (if isNewValue floating old new then new else old))
      else none

/-- The property after an assignment, `none` where it throws. -/
def Assignment.effect : Assignment F → Option (Property F) → Option (Property F)
  | .replace _ value, _ => some (.container value)
  | .renew _ value, property => setPropertyFromString floating value property
  | .throw _, _ => none

def reservedOptionsString : List Text :=
  ["id".toList, "transport".toList, "network-interface".toList, "shm-allocation".toList,
    "session".toList, "config-key".toList, "mq-config".toList, "severity".toList,
    "file-severity".toList, "verbosity".toList, "log-to-file".toList]

def reservedOptionsInt : List Text :=
  ["io-threads".toList, "init-timeout".toList]

def reservedOptionsBool : List Text :=
  ["print-channels".toList, "shm-mlock-segment".toList, "shm-zero-segment".toList,
    "shm-throw-bad-alloc".toList, "shm-monitor".toList]

def reservedOptionsSize : List Text :=
  ["shm-segment-size".toList, "color".toList]

def reservedOptionsUint16 : List Text :=
  ["shm-segment-id".toList]

def reservedOptionsFloat : List Text :=
  ["rate".toList]

def reservedOptionsVectorString : List Text :=
  ["channel-config".toList]

/-- `IsReservedOption`. -/
def isReservedOption (name : Text) : Bool :=
  name ∈ reservedOptionsString ++ reservedOptionsInt ++ reservedOptionsBool ++
    reservedOptionsSize ++ reservedOptionsUint16 ++ reservedOptionsFloat ++
    reservedOptionsVectorString

/-- The texts of a set flag. -/
def trueTexts : List Text :=
  ["1".toList, "true".toList, "TRUE".toList, "True".toList, "on".toList, "ON".toList,
    "On".toList, "yes".toList, "YES".toList, "Yes".toList]

/-- Set a property from a text whose conversion may throw. -/
def renewWith (name : Text) (value : Option (Scalar F)) : Assignment F :=
  match value with
  | some value => .renew name value
  | none => .throw name

/-- `ToArray`. -/
def toArray (name line : Text) : Assignment F :=
  .replace name (.vector (Text.splitCompress (Text.trim line) [',', ' ']))

/-- One entry of `ToMap`, ignored without exactly one name and one value. -/
def addEntry (m : Finmap fun _ : Text => Text) (x : Text) : Finmap fun _ : Text => Text :=
  match Text.splitCompress (Text.trim x) ['=', ' '] with
  | [entry, value] => if entry ∈ m then m else m.insert entry value
  | _ => m

/-- `ToMap`. -/
def toMap (name line : Text) : Assignment F :=
  .replace name (.map ((Text.splitCompress (Text.trim line) [',']).foldl addEntry ∅))

/-- `SetPropertyOfReservedOption`: the options of 16 bits are passed over. -/
def setPropertyOfReservedOption (name line : Text) : List (Assignment F) :=
  if name ∈ reservedOptionsString then [.renew name (.string line)]
  else if name ∈ reservedOptionsInt then
    [renewWith name ((Text.stoll line).map fun n => .int (n.bmod (2 ^ 32)))]
  else if name ∈ reservedOptionsSize then
    [renewWith name ((Text.stoull line).map .size)]
  else if name ∈ reservedOptionsBool then [.renew name (.bool (line ∈ trueTexts))]
  else if name ∈ reservedOptionsFloat then [renewWith name ((floating.stod line).map .float)]
  else if name ∈ reservedOptionsVectorString then [toArray name line]
  else []

/-- `Parse`. -/
def parse (name line : Text) : List (Assignment F) :=
  if isReservedOption name then setPropertyOfReservedOption floating name line
  else if ',' ∉ line then [.renew name (.string line)]
  else if '=' ∉ line then [toArray name line]
  else [toMap name line]

@[simp]
theorem renewWith_name (name : Text) (value : Option (Scalar F)) :
    (renewWith name value).name = name := by
  cases value <;> rfl

/-- A text is parsed as one assignment of its parameter, or passed over. -/
theorem parse_eq_nil_or_singleton (name line : Text) :
    parse floating name line = [] ∨
      ∃ assignment : Assignment F, assignment.name = name ∧
        parse floating name line = [assignment] := by
  unfold parse setPropertyOfReservedOption
  split_ifs
  all_goals first
    | exact Or.inl rfl
    | exact Or.inr ⟨_, rfl, rfl⟩
    | exact Or.inr ⟨_, renewWith_name _ _, rfl⟩

/-- Only the options of 16 bits are passed over. -/
theorem parse_eq_nil_iff {name line : Text} :
    parse floating name line = [] ↔ name ∈ reservedOptionsUint16 := by
  constructor
  · intro passed
    unfold parse setPropertyOfReservedOption at passed
    split_ifs at passed with reserved
    all_goals first
      | exact absurd passed (List.cons_ne_nil _ _)
      | simpa [isReservedOption, *] using reserved
  · intro member
    obtain rfl := List.mem_singleton.mp member
    have reserved : isReservedOption "shm-segment-id".toList = true := by decide
    rw [parse, if_pos reserved, setPropertyOfReservedOption]
    repeat rw [if_neg (by decide)]

theorem name_of_mem_parse {name line : Text} {assignment : Assignment F}
    (member : assignment ∈ parse floating name line) : assignment.name = name := by
  rcases parse_eq_nil_or_singleton floating name line with none | ⟨only, named, single⟩
  · rw [none] at member
    exact absurd member List.not_mem_nil
  · rw [single] at member
    obtain rfl := List.mem_singleton.mp member
    exact named

end Parameter

end NestDaq
