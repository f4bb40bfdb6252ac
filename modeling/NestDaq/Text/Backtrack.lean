import NestDaq.Text.Search

/-!
# Whole matches with backtracking

Regular expressions with optional characters that have to fit a whole text. The choices are
tried in order, the longest block of a group and the presence of an optional character first,
and the first that lets the rest of the pattern fit is taken. A choice is known once every
choice in front of it fails.
-/

namespace NestDaq.Text

/-- An item of a pattern; a group takes at least a number of characters. -/
inductive Item where
  | group (accepts : Char → Bool) (least : Nat)
  | literal (char : Char)
  | optional (char : Char)

/-- The literal characters of a text. -/
def literalItems (text : Text) : List Item :=
  text.map Item.literal

/-- `std::regex_match`: the groups of the first choices with which the whole text fits. -/
def matchWhole : List Item → Text → Option (List Text)
  | [], text => if text = [] then some [] else none
  | .literal char :: rest, text =>
      if text.head? = some char then matchWhole rest text.tail else none
  | .optional char :: rest, text =>
      if text.head? = some char then
        (matchWhole rest text.tail).orElse fun _ => matchWhole rest text
      else matchWhole rest text
  | .group accepts least :: rest, text =>
      (lengths least (text.takeWhile accepts).length).findSome? fun n =>
        (matchWhole rest (text.drop n)).map (text.take n :: ·)

variable {rest : List Item} {text : Text} {found : List Text}

theorem lengths_succ {least longest : Nat} (within : least ≤ longest + 1) :
    lengths least (longest + 1) = (longest + 1) :: lengths least longest := by
  rw [lengths, List.range_succ, List.filter_append, List.filter_cons_of_pos (by simpa using within),
    List.filter_nil, List.reverse_append]
  rfl

/-- The longest length with a result gives it. -/
theorem findSome?_lengths {A : Type} {least longest n : Nat} {choice : Nat → Option A} {result : A}
    (atLeast : least ≤ n) (atMost : n ≤ longest) (here : choice n = some result)
    (longer : ∀ m, n < m → m ≤ longest → choice m = none) :
    (lengths least longest).findSome? choice = some result := by
  induction longest with
  | zero =>
      obtain rfl := Nat.le_zero.mp atMost
      obtain rfl := Nat.le_zero.mp atLeast
      rw [show lengths 0 0 = [0] from rfl, List.findSome?_cons, here]
  | succ longest ih =>
      rw [lengths_succ (atLeast.trans atMost), List.findSome?_cons]
      rcases Nat.lt_or_eq_of_le atMost with below | rfl
      · rw [longer (longest + 1) below (Nat.le_refl _)]
        apply ih (Nat.le_of_lt_succ below)
        intro m above within
        exact longer m above (Nat.le_succ_of_le within)
      · rw [here]

/-- A literal that is missing. -/
theorem matchWhole_literal_ne {char : Char} (missing : text.head? ≠ some char) :
    matchWhole (.literal char :: rest) text = none :=
  if_neg missing

theorem matchWhole_literalItems (block : Text) (rest : List Item) (text : Text) :
    matchWhole (literalItems block ++ rest) (block ++ text) = matchWhole rest text := by
  induction block with
  | nil => rfl
  | cons char block ih => exact (if_pos rfl).trans ih

/-- A group takes a block when no longer one lets the rest fit. -/
theorem matchWhole_group {accepts : Char → Bool} {least : Nat} {block : Text}
    (long : least ≤ block.length) (accepted : ∀ char ∈ block, accepts char)
    (later : matchWhole rest text = some found)
    (longer : ∀ more tail, text = more ++ tail → more ≠ [] → (∀ char ∈ more, accepts char) →
      matchWhole rest tail = none) :
    matchWhole (.group accepts least :: rest) (block ++ text) = some (block :: found) := by
  have taken : (block ++ text).takeWhile accepts = block ++ text.takeWhile accepts :=
    List.takeWhile_append_of_pos accepted
  rw [matchWhole, taken]
  apply findSome?_lengths long
  · rw [List.length_append]
    exact Nat.le_add_right _ _
  · rw [List.drop_left, List.take_left, later, Option.map_some]
  · -- a longer block ends within the characters of the class behind this one
    intro m above within
    rw [List.length_append] at within
    have begins : text.take (m - block.length) =
        (text.takeWhile accepts).take (m - block.length) := by
      have begins : text.takeWhile accepts <+: text := List.takeWhile_prefix accepts
      rcases begins with ⟨behind, whole⟩
      calc text.take (m - block.length)
          = (text.takeWhile accepts ++ behind).take (m - block.length) := by rw [whole]
        _ = (text.takeWhile accepts).take (m - block.length) :=
          List.take_append_of_le_length (by omega)
    have size : (text.take (m - block.length)).length = m - block.length := by
      rw [begins, List.length_take]
      omega
    rw [List.drop_append, List.drop_of_length_le above.le, List.nil_append,
      longer (text.take (m - block.length)) (text.drop (m - block.length)),
      Option.map_none]
    · rw [List.take_append_drop]
    · intro empty
      rw [empty, List.length_nil] at size
      omega
    · intro char member
      rw [begins] at member
      exact List.mem_takeWhile_imp (List.mem_of_mem_take member)

/-- A group takes as much as it can when the rest fits then. -/
theorem matchWhole_group_of_stop {accepts : Char → Bool} {least : Nat} {block : Text}
    (long : least ≤ block.length) (accepted : ∀ char ∈ block, accepts char)
    (stop : ∀ char, text.head? = some char → accepts char = false)
    (later : matchWhole rest text = some found) :
    matchWhole (.group accepts least :: rest) (block ++ text) = some (block :: found) := by
  apply matchWhole_group long accepted later
  intro more tail split nonempty acceptedMore
  rcases List.exists_cons_of_ne_nil nonempty with ⟨char, more, rfl⟩
  have refused : accepts char = false := stop char (by rw [split]; rfl)
  rw [acceptedMore char List.mem_cons_self] at refused
  cases refused

end NestDaq.Text
