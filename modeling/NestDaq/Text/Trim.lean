import NestDaq.Text.Search
import NestDaq.Text.Split

/-!
# White space around a text

What is left of a text when the white space around it is cut off, and of its parts when
each of them is trimmed: white space around the whole text makes no difference then.
-/

namespace NestDaq.Text

variable {text : Text}

/-- White space is at neither end of a trimmed text. -/
theorem isSpace_ends_trim {char : Char} :
    ((trim text).head? = some char → isSpace char = false) ∧
      ((trim text).getLast? = some char → isSpace char = false) := by
  constructor
  · intro first
    rcases List.rdropWhile_prefix isSpace (text.dropWhile isSpace) with ⟨rest, whole⟩
    have isHead : (text.dropWhile isSpace).head? = some char := by
      rw [← whole, List.head?_append]
      exact Option.or_eq_some_iff.mpr (Or.inl first)
    have dropped := List.head?_dropWhile_not isSpace text
    rw [isHead] at dropped
    simpa using dropped
  · intro last
    have nonempty : (text.dropWhile isSpace).rdropWhile isSpace ≠ [] := by
      rintro empty
      rw [trim, empty] at last
      cases last
    have dropped := List.rdropWhile_last_not isSpace (text.dropWhile isSpace) nonempty
    rw [trim, List.getLast?_eq_some_getLast nonempty, Option.some.injEq] at last
    rw [last] at dropped
    simpa using dropped

/-- A text that is not all white space is not empty after it is trimmed. -/
theorem trim_ne_nil {char : Char} (member : char ∈ text) (visible : isSpace char = false) :
    trim text ≠ [] := by
  intro empty
  have spaces := List.rdropWhile_eq_nil_iff.mp empty
  have all : ∀ other ∈ text, isSpace other := by
    intro other inText
    rw [← @List.takeWhile_append_dropWhile _ isSpace text] at inText
    rcases List.mem_append.mp inText with front | rest
    · exact List.mem_takeWhile_imp front
    · exact spaces other rest
  rw [all char member] at visible
  cases visible

/-- Only white space is cut off. -/
theorem exists_eq_append_trim (text : Text) :
    ∃ before after, (∀ char ∈ before, isSpace char) ∧ (∀ char ∈ after, isSpace char) ∧
      text = before ++ trim text ++ after := by
  refine ⟨text.takeWhile isSpace, (text.dropWhile isSpace).rtakeWhile isSpace, ?_, ?_, ?_⟩
  · intro char member
    exact List.mem_takeWhile_imp member
  · intro char member
    exact List.mem_rtakeWhile_imp member
  · rw [trim, List.append_assoc, List.rdropWhile_append_rtakeWhile,
      List.takeWhile_append_dropWhile]

/-- White space behind a text is cut off from it. -/
theorem rdropWhile_append {after : Text} (back : ∀ char ∈ after, isSpace char) :
    (text ++ after).rdropWhile isSpace = text.rdropWhile isSpace := by
  rw [List.rdropWhile, List.reverse_append, List.dropWhile_append_of_pos]
  · rfl
  · intro char member
    exact back char (List.mem_reverse.mp member)

/-- White space around a text makes no difference when it is trimmed. -/
theorem trim_append {before after : Text} (front : ∀ char ∈ before, isSpace char)
    (back : ∀ char ∈ after, isSpace char) : trim (before ++ text ++ after) = trim text := by
  rw [trim, trim, List.append_assoc, List.dropWhile_append_of_pos front, List.dropWhile_append]
  by_cases empty : text.dropWhile isSpace = []
  · rw [empty, List.isEmpty_nil, if_pos rfl, List.dropWhile_eq_nil_iff.mpr back]
  · rw [if_neg (by simpa using empty), rdropWhile_append back]

theorem trim_append_left {before : Text} (front : ∀ char ∈ before, isSpace char) :
    trim (before ++ text) = trim text := by
  rw [← @trim_append text before [] front fun _ member => absurd member List.not_mem_nil,
    List.append_nil]

theorem trim_append_right {after : Text} (back : ∀ char ∈ after, isSpace char) :
    trim (text ++ after) = trim text :=
  @trim_append text [] after (fun _ member => absurd member List.not_mem_nil) back

/-- A text without white space at its ends is left as it is. -/
theorem trim_of_ends (first : ∀ char, text.head? = some char → isSpace char = false)
    (last : ∀ char, text.getLast? = some char → isSpace char = false) : trim text = text := by
  have front : text.dropWhile isSpace = text := by
    cases text with
    | nil => rfl
    | cons char rest =>
        exact List.dropWhile_cons_of_neg (Bool.eq_false_iff.mp (first char rfl))
  rw [trim, front, List.rdropWhile_eq_self_iff]
  intro nonempty
  exact Bool.eq_false_iff.mp (last _ (List.getLast?_eq_some_getLast nonempty))

/-- White space around a text makes no difference for its trimmed parts. -/
theorem map_trim_split_append {delimiters before after : Text}
    (visible : ∀ char ∈ delimiters, isSpace char = false)
    (front : ∀ char ∈ before, isSpace char) (back : ∀ char ∈ after, isSpace char) :
    (split (before ++ text ++ after) delimiters).map trim = (split text delimiters).map trim := by
  have free : ∀ block : Text, (∀ char ∈ block, isSpace char) →
      split block delimiters = [block] := by
    intro block spaces
    apply split_of_free
    intro char member isDelimiter
    have seen := visible char isDelimiter
    rw [spaces char member] at seen
    cases seen
  have behind : (split (text ++ after) delimiters).map trim = (split text delimiters).map trim := by
    rcases exists_split_eq_concat text delimiters with ⟨parts, last, parted⟩
    rw [split_append parted (free after back), parted, List.map_append, List.map_append,
      List.map_singleton, List.map_singleton, trim_append_right back]
  rcases exists_split_eq_cons (text ++ after) delimiters with ⟨first, parts, parted⟩
  have joined := @split_append delimiters before (text ++ after) [] parts before first
    (free before front) parted
  rw [List.append_assoc, joined, ← behind, parted, List.nil_append, List.map_cons, List.map_cons,
    trim_append_left front]

/-- The trimmed parts of a text are those of the trimmed text. -/
theorem map_trim_split_trim {delimiters : Text}
    (visible : ∀ char ∈ delimiters, isSpace char = false) :
    (split (trim text) delimiters).map trim = (split text delimiters).map trim := by
  rcases exists_eq_append_trim text with ⟨before, after, front, back, whole⟩
  have parts := @map_trim_split_append (trim text) delimiters before after visible front back
  rw [← whole] at parts
  exact parts.symm

end NestDaq.Text
