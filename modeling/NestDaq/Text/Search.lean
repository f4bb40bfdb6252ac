import Mathlib.Data.List.DropRight
import NestDaq.Text.Core

/-!
# Searches for a pattern

Regular expressions that are a sequence of literal characters and of capturing
groups, each so many characters of a class as possible. A text is searched from its
start; a group gives characters back where the rest of the pattern needs them. White
space around what has been found is cut off.
-/

namespace NestDaq.Text

/-- A token of a pattern; a group takes at least a number of characters. -/
inductive Token where
  | group (accepts : Char → Bool) (least : Nat)
  | literal (char : Char)

/-- The literal characters of a text. -/
def literals (text : Text) : List Token :=
  text.map Token.literal

/-- The lengths that a group may have, the longest first. -/
def lengths (least longest : Nat) : List Nat :=
  ((List.range (longest + 1)).filter fun n => least ≤ n).reverse

/-- The groups of a pattern at the start of a text. -/
def searchHere : List Token → Text → Option (List Text)
  | [], _ => some []
  | .literal _ :: _, [] => none
  | .literal char :: rest, first :: text => if first = char then searchHere rest text else none
  | .group accepts least :: rest, text =>
      (lengths least (text.takeWhile accepts).length).findSome? fun n =>
        (searchHere rest (text.drop n)).map (text.take n :: ·)

/-- `std::regex_search`: the groups where the pattern is found first. -/
def search (pattern : List Token) (text : Text) : Option (List Text) :=
  text.tails.findSome? (searchHere pattern)

/-- `boost::is_space`. -/
def isSpace (char : Char) : Bool :=
  char.toNat ∈ [9, 10, 11, 12, 13, 32]

/-- `boost::trim_if` with `is_space`. -/
def trim (text : Text) : Text :=
  (text.dropWhile isSpace).rdropWhile isSpace

end NestDaq.Text
