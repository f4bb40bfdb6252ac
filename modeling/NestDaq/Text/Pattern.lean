import Mathlib.Data.List.Forall2
import NestDaq.Text.Core

/-!
# Patterns of groups and separators

Regular expressions that are a sequence of capturing groups, each one or more
characters of a class, and of literal characters. `Matches` is their meaning:
the text is divided in any way that fits. Where every group ends at a character
that its class refuses, there is one way, and `groups` finds it.
-/

namespace NestDaq.Text

/-- A piece of a pattern. -/
inductive Piece where
  | group (accepts : Char → Bool)
  | literal (char : Char)

/-- `std::regex_match`: the whole text fits the pattern with these groups. -/
inductive Matches : List Piece → Text → List Text → Prop
  | nil : Matches [] [] []
  | literal {char : Char} {rest : List Piece} {text : Text} {found : List Text}
      (later : Matches rest text found) :
      Matches (.literal char :: rest) (char :: text) found
  | group {accepts : Char → Bool} {rest : List Piece} {block text : Text} {found : List Text}
      (nonempty : block ≠ []) (accepted : ∀ char ∈ block, accepts char)
      (later : Matches rest text found) :
      Matches (.group accepts :: rest) (block ++ text) (block :: found)

/-- The groups of a text, each as long as its class allows. -/
def groups : List Piece → Text → Option (List Text)
  | [], [] => some []
  | [], _ :: _ => none
  | .literal _ :: _, [] => none
  | .literal char :: rest, first :: text => if first = char then groups rest text else none
  | .group accepts :: rest, text =>
      if text.takeWhile accepts = [] then none
      else (groups rest (text.dropWhile accepts)).map (text.takeWhile accepts :: ·)

/-- A group ends with the text or at a literal that its class refuses. -/
def Separated : List Piece → Prop
  | [] => True
  | .literal _ :: rest => Separated rest
  | [.group _] => True
  | .group accepts :: .literal char :: rest => accepts char = false ∧ Separated rest
  | .group _ :: .group _ :: _ => False

theorem matches_of_groups {pattern : List Piece} {text : Text} {found : List Text}
    (groupsEq : groups pattern text = some found) : Matches pattern text found := by
  induction pattern generalizing text found with
  | nil =>
      cases text with
      | nil =>
          cases groupsEq
          exact .nil
      | cons first text => cases groupsEq
  | cons piece rest ih =>
      cases piece with
      | literal char =>
          cases text with
          | nil => cases groupsEq
          | cons first text =>
              rw [groups] at groupsEq
              by_cases same : first = char
              · rw [if_pos same] at groupsEq
                subst same
                exact .literal (ih groupsEq)
              · rw [if_neg same] at groupsEq
                cases groupsEq
      | group accepts =>
          rw [groups] at groupsEq
          by_cases empty : text.takeWhile accepts = []
          · rw [if_pos empty] at groupsEq
            cases groupsEq
          · rw [if_neg empty] at groupsEq
            rcases Option.map_eq_some_iff.mp groupsEq with ⟨later, rest, rfl⟩
            have split := Matches.group empty
              (fun char member => List.mem_takeWhile_imp member) (ih rest)
            rwa [List.takeWhile_append_dropWhile] at split

/-- The way of dividing a text is the only one. -/
theorem groups_of_matches {pattern : List Piece} {text : Text} {found : List Text}
    (separated : Separated pattern) (fits : Matches pattern text found) :
    groups pattern text = some found := by
  induction fits with
  | nil => rfl
  | literal later ih =>
      rw [groups, if_pos rfl]
      exact ih separated
  | @group accepts rest block text found nonempty accepted later ih =>
      have stops : (block ++ text).takeWhile accepts = block ∧
          (block ++ text).dropWhile accepts = text := by
        cases later with
        | nil =>
            rw [List.append_nil]
            exact ⟨List.takeWhile_eq_self_iff.mpr accepted,
              List.dropWhile_eq_nil_iff.mpr accepted⟩
        | @literal char rest text found later =>
            have refused : accepts char = false := separated.1
            rw [List.takeWhile_append_of_pos accepted, List.dropWhile_append_of_pos accepted]
            simp [refused]
        | group => cases separated
      have restSeparated : Separated rest := by
        cases later with
        | nil => trivial
        | literal later => exact separated.2
        | group => cases separated
      rw [groups, stops.1, stops.2, if_neg nonempty, ih restSeparated]
      rfl

/-- The classes of the groups of a pattern. -/
def classes : List Piece → List (Char → Bool)
  | [] => []
  | .literal _ :: rest => classes rest
  | .group accepts :: rest => accepts :: classes rest

/-- The groups of a text are made of characters of their classes. -/
theorem Matches.accepted {pattern : List Piece} {text : Text} {found : List Text}
    (fits : Matches pattern text found) :
    List.Forall₂ (fun accepts block => block ≠ [] ∧ ∀ char ∈ block, accepts char)
      (classes pattern) found := by
  induction fits with
  | nil => exact .nil
  | literal later ih => exact ih
  | group nonempty accepted later ih => exact .cons ⟨nonempty, accepted⟩ ih

end NestDaq.Text
