import Mathlib.Data.List.TakeWhile
import Mathlib.Data.Char

/-!
# Character strings

The operations of `std::string` and of the string algorithms the code uses,
over lists of characters: joining and splitting at separators, forward and
backward searches, substrings, and decimal numbers. Positions are natural
numbers, and `none` stands for `npos`.
-/

namespace NestDaq

/-- A string of the code. -/
abbrev Text := List Char

namespace Text

/-- The equality test of texts is equality; membership in a list of texts is decided by it. -/
instance lawfulBEq : LawfulBEq Text :=
  inferInstance

/-- A property of the characters of a text is decided along the text. -/
instance decidableForallMem (text : Text) (property : Char → Prop) [DecidablePred property] :
    Decidable (∀ char ∈ text, property char) :=
  text.decidableBAll property

/-- `boost::join`. -/
def join (parts : List Text) (separator : Text) : Text :=
  separator.intercalate parts

@[simp]
theorem join_singleton (part separator : Text) : join [part] separator = part := by
  simp [join]

@[simp]
theorem join_cons_cons (first second separator : Text) (parts : List Text) :
    join (first :: second :: parts) separator =
      first ++ separator ++ join (second :: parts) separator := by
  simp [join, List.intercalate]

/-- `boost::split` at any character of `delimiters`. -/
def split (text delimiters : Text) : List Text :=
  text.splitOnP (· ∈ delimiters)

/-- `boost::to_lower_copy`. -/
def toLower (text : Text) : Text :=
  text.map Char.toLower

/-- `find`: the first position at which `pattern` occurs. -/
def find : Text → Text → Option Nat
  | [], pattern => if pattern = [] then some 0 else none
  | char :: rest, pattern =>
      if pattern <+: char :: rest then some 0
      else (find rest pattern).map (· + 1)

/-- `find_last_of`: the last position holding a character of `set`. -/
def findLastOf : Text → Text → Option Nat
  | [], _ => none
  | char :: rest, set =>
      match findLastOf rest set with
      | some position => some (position + 1)
      | none => if char ∈ set then some 0 else none

/-- `find_last_of(set, limit)`: only positions up to `limit` are considered,
and `npos` as limit considers all of them. -/
def findLastOfUpTo (text set : Text) : Option Nat → Option Nat
  | none => findLastOf text set
  | some limit => findLastOf (text.take (limit + 1)) set

/-- `substr(start)`. -/
def substrFrom (text : Text) (start : Nat) : Text :=
  text.drop start

/-- `substr(0, stop)`, the whole string for `npos`. -/
def substrTo (text : Text) : Option Nat → Text
  | none => text
  | some stop => text.take stop

/-- `substr(start, stop - start)`. A count that is `npos` or wraps around below
zero reaches the end of the string. -/
def substrBetween (text : Text) (start : Nat) (stop : Option Nat) : Text :=
  match stop with
  | none => text.drop start
  | some stop =>
      if start ≤ stop then (text.drop start).take (stop - start) else text.drop start

/-- The position after a found one; `npos + 1` is zero. -/
def after : Option Nat → Nat
  | none => 0
  | some position => position + 1

/-- The substring after a separator. -/
theorem substrFrom_separator (before after : Text) (separator : Char) :
    substrFrom (before ++ separator :: after) (before.length + 1) = after := by
  simp [substrFrom, List.drop_append]

/-- The substring in front of a found position. -/
theorem substrTo_length (before after : Text) :
    substrTo (before ++ after) (some before.length) = before :=
  List.take_left

/-- The substring between two separators. -/
theorem substrBetween_separators (before middle after : Text) (first second : Char) :
    substrBetween (before ++ first :: middle ++ second :: after) (before.length + 1)
      (some (before ++ first :: middle).length) = middle := by
  have rest : (before ++ first :: middle ++ second :: after).drop (before.length + 1) =
      middle ++ second :: after := by
    simp [List.drop_append]
  have count : (before ++ first :: middle).length - (before.length + 1) = middle.length := by
    rw [List.length_append, List.length_cons]
    omega
  have ordered : before.length + 1 ≤ (before ++ first :: middle).length := by
    simp
  rw [substrBetween, if_pos ordered, rest, count, List.take_left']
  rfl

theorem find_of_prefix {pattern text : Text} (isPrefix : pattern <+: text) :
    find text pattern = some 0 := by
  cases text with
  | nil => simp [find, List.prefix_nil.mp isPrefix]
  | cons char rest => simp [find, isPrefix]

theorem find_cons_of_not_prefix {pattern : Text} {char : Char} {rest : Text}
    (notPrefix : ¬ pattern <+: char :: rest) :
    find (char :: rest) pattern = (find rest pattern).map (· + 1) := by
  simp [find, notPrefix]

/-- A block without the first character of the pattern holds no occurrence. -/
theorem find_append_of_notMem {block rest pattern : Text} {first : Char}
    (absent : first ∉ block) :
    find (block ++ rest) (first :: pattern) =
      (find rest (first :: pattern)).map (· + block.length) := by
  induction block with
  | nil => simp
  | cons char block ih =>
      have differs : first ≠ char := fun equal => absent (equal ▸ List.mem_cons_self)
      have notPrefix : ¬ first :: pattern <+: char :: (block ++ rest) := by
        intro isPrefix
        exact differs (List.cons_prefix_cons.mp isPrefix).1
      rw [List.cons_append, find_cons_of_not_prefix notPrefix,
        ih fun member => absent (List.mem_cons_of_mem _ member)]
      simp [Option.map_map, Function.comp_def, Nat.add_assoc]

theorem findLastOf_of_notMem {text set : Text} (absent : ∀ char ∈ text, char ∉ set) :
    findLastOf text set = none := by
  induction text with
  | nil => rfl
  | cons char rest ih =>
      rw [findLastOf, ih fun c member => absent c (List.mem_cons_of_mem _ member)]
      simp [absent char List.mem_cons_self]

/-- The backward search stops at a separator followed by none. -/
theorem findLastOf_append_cons {before after set : Text} {separator : Char}
    (isSeparator : separator ∈ set) (absent : ∀ char ∈ after, char ∉ set) :
    findLastOf (before ++ separator :: after) set = some before.length := by
  induction before with
  | nil => simp [findLastOf, findLastOf_of_notMem absent, isSeparator]
  | cons char before ih => simp [findLastOf, ih]

/-- The text in front of the first separator is determined by the whole. -/
theorem append_separator_inj {separator : Char} {first second firstRest secondRest : Text}
    (firstFree : separator ∉ first) (secondFree : separator ∉ second)
    (equal : first ++ separator :: firstRest = second ++ separator :: secondRest) :
    first = second ∧ firstRest = secondRest := by
  induction first generalizing second with
  | nil =>
      cases second with
      | nil => simpa using equal
      | cons char second =>
          obtain ⟨rfl, -⟩ := List.cons.inj equal
          exact absurd List.mem_cons_self secondFree
  | cons char first ih =>
      cases second with
      | nil =>
          obtain ⟨rfl, -⟩ := List.cons.inj equal
          exact absurd List.mem_cons_self firstFree
      | cons char' second =>
          rw [List.cons_append, List.cons_append] at equal
          obtain ⟨rfl, tails⟩ := List.cons.inj equal
          obtain ⟨rfl, rest⟩ := ih (fun member => firstFree (List.mem_cons_of_mem _ member))
            (fun member => secondFree (List.mem_cons_of_mem _ member)) tails
          exact ⟨rfl, rest⟩

/-- The text behind the last separator is determined by the whole. -/
theorem append_separator_inj_last {separator : Char} {first second firstRest secondRest : Text}
    (firstFree : separator ∉ firstRest) (secondFree : separator ∉ secondRest)
    (equal : first ++ separator :: firstRest = second ++ separator :: secondRest) :
    first = second ∧ firstRest = secondRest := by
  have reversed := congrArg List.reverse equal
  simp only [List.reverse_append, List.reverse_cons, List.append_assoc, List.singleton_append]
    at reversed
  obtain ⟨rest, front⟩ := append_separator_inj (by simpa using firstFree)
    (by simpa using secondFree) reversed
  exact ⟨List.reverse_inj.mp front, List.reverse_inj.mp rest⟩

/-- A text without the separator that begins a longer text begins its first part. -/
theorem prefix_of_append_separator {separator : Char} {part first rest tail : Text}
    (free : separator ∉ part) (equal : part ++ tail = first ++ separator :: rest) :
    part <+: first := by
  rcases List.append_eq_append_iff.mp equal with ⟨more, rfl, -⟩ | ⟨more, rfl, split⟩
  · exact List.prefix_append _ _
  · cases more with
    | nil => simp
    | cons char more =>
        obtain ⟨rfl, -⟩ := List.cons.inj split
        simp at free

/-- `std::to_string` of an index. -/
def decimal (n : Nat) : Text :=
  Nat.toDigits 10 n

/-- `std::to_string` of an `int`. -/
def toString : Int → Text
  | .ofNat n => decimal n
  | .negSucc n => '-' :: decimal (n + 1)

/-- The value of the decimal digits at the front, `none` without any. -/
def leadingNat (text : Text) : Option Nat :=
  let digits := text.takeWhile Char.isDigit
  if digits = [] then none else some (Nat.ofDigitChars 10 digits 0)

/-- `std::stoi`: leading white space and a sign are accepted, text after the
digits is ignored, and a string without digits throws. The numbers of the
registry are small, and the range check of `int` is not modelled. -/
def stoi (text : Text) : Option Int :=
  match text.dropWhile Char.isWhitespace with
  | '-' :: rest => (leadingNat rest).map fun n => -(n : Int)
  | '+' :: rest => (leadingNat rest).map fun n => (n : Int)
  | rest => (leadingNat rest).map fun n => (n : Int)

theorem decimal_ne_nil (n : Nat) : decimal n ≠ [] :=
  Nat.toDigits_ne_nil

theorem isDigit_of_mem_decimal {n : Nat} {char : Char} (member : char ∈ decimal n) :
    char.isDigit :=
  Nat.isDigit_of_mem_toDigits (by decide) (by decide) member

theorem dot_notMem_decimal (n : Nat) : '.' ∉ decimal n :=
  fun member => absurd (isDigit_of_mem_decimal member) (by decide)

theorem decimal_injective : Function.Injective decimal := by
  intro m n equal
  have values := congrArg (fun digits => Nat.ofDigitChars 10 digits 0) equal
  simpa [decimal] using values

/-- Decimal numbers get arbitrarily long. -/
theorem exists_lt_length_decimal (size : Nat) : ∃ n, size < (decimal n).length := by
  refine ⟨10 ^ (size + 1), ?_⟩
  have long : ¬ (decimal (10 ^ (size + 1))).length ≤ size + 1 := by
    rw [decimal, Nat.length_toDigits_le_iff (by decide) (Nat.succ_pos _)]
    exact Nat.lt_irrefl _
  omega

/-- A number is not smaller than one its digits begin with. -/
theorem le_of_decimal_prefix {small large : Nat} (isPrefix : decimal small <+: decimal large) :
    small ≤ large := by
  obtain ⟨more, digits⟩ := isPrefix
  have value : large = Nat.ofDigitChars 10 more small := by
    have values := congrArg (fun digits => Nat.ofDigitChars 10 digits 0) digits
    simpa [decimal, Nat.ofDigitChars_append] using values.symm
  rw [value, Nat.ofDigitChars_eq_ofDigitChars_zero]
  exact (Nat.le_mul_of_pos_left small (Nat.pow_pos (by decide))).trans (Nat.le_add_right _ _)

theorem leadingNat_decimal (n : Nat) : leadingNat (decimal n) = some n := by
  have digits : (decimal n).takeWhile Char.isDigit = decimal n :=
    List.takeWhile_eq_self_iff.mpr fun _ member => isDigit_of_mem_decimal member
  simp only [leadingNat, digits, decimal_ne_nil, if_false]
  simp [decimal]

theorem ne_of_isDigit {char other : Char} (isDigit : char.isDigit)
    (notDigit : other.isDigit = false) : char ≠ other := by
  rintro rfl
  simp [isDigit] at notDigit

theorem not_isWhitespace_of_isDigit {char : Char} (isDigit : char.isDigit) :
    char.isWhitespace = false := by
  simp only [Char.isWhitespace, Bool.or_eq_false_iff, decide_eq_false_iff_not]
  refine ⟨⟨⟨?_, ?_⟩, ?_⟩, ?_⟩ <;> exact ne_of_isDigit isDigit (by decide)

/-- Printed integers read back. -/
theorem stoi_toString (n : Int) : stoi (toString n) = some n := by
  cases n with
  | ofNat n =>
      cases digits : decimal n with
      | nil => exact absurd digits (decimal_ne_nil n)
      | cons first rest =>
          have isDigit : first.isDigit :=
            isDigit_of_mem_decimal (n := n) (digits ▸ List.mem_cons_self)
          have value := leadingNat_decimal n
          rw [digits] at value
          simp [toString, stoi, digits, not_isWhitespace_of_isDigit isDigit,
            ne_of_isDigit isDigit (show '-'.isDigit = false by decide),
            ne_of_isDigit isDigit (show '+'.isDigit = false by decide), value]
  | negSucc n =>
      simp [toString, stoi, leadingNat_decimal, Char.isWhitespace, Int.negSucc_eq]

theorem toString_injective : Function.Injective toString := by
  intro first second equal
  have values := congrArg stoi equal
  simpa [stoi_toString] using values

attribute [irreducible] decimal

end Text

end NestDaq
