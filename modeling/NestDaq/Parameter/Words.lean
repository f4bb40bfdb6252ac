import NestDaq.Parameter.Data
import NestDaq.Text.Trim

/-!
# Words of a list parameter

A text with a comma and without an equal sign becomes an array. White space around the
text is cut off first, so that a space is never its first or last character; a comma may
be, and then leaves an empty element.
-/

namespace NestDaq

namespace Parameter

variable {F : Type}

/-- A text with a comma and no equal sign is parsed as its words, without an empty element,
if and only if no comma is at either end of the trimmed text. -/
theorem parse_words_iff (floating : Floating F) {name line : Text}
    (free : isReservedOption name = false) (comma : ',' ∈ line) (noEqual : '=' ∉ line) :
    parse floating name line =
        [.replace name (.vector (Text.words (Text.trim line) [',', ' ']))] ↔
      (Text.trim line).head? ≠ some ',' ∧ (Text.trim line).getLast? ≠ some ',' := by
  have parsed : parse floating name line = [toArray name line] := by
    rw [parse, free, if_neg Bool.false_ne_true, if_neg (not_not.mpr comma), if_pos noEqual]
  have nonempty : Text.trim line ≠ [] := Text.trim_ne_nil comma (by decide)
  have noSpace : (Text.trim line).head? ≠ some ' ' ∧ (Text.trim line).getLast? ≠ some ' ' := by
    constructor
    · intro first
      exact absurd (Text.isSpace_ends_trim.1 first) (by decide)
    · intro last
      exact absurd (Text.isSpace_ends_trim.2 last) (by decide)
  rw [parsed, toArray]
  simp only [List.cons.injEq, and_true, Assignment.replace.injEq, Container.vector.injEq,
    true_and]
  rw [Text.splitCompress_eq_words_iff]
  constructor
  · rintro ⟨_, ends⟩
    exact ends ',' List.mem_cons_self
  · intro ends
    refine ⟨nonempty, ?_⟩
    intro char member
    rcases List.mem_cons.mp member with rfl | member
    · exact ends
    · rw [List.mem_singleton.mp member]
      exact noSpace

/-- The arithmetic of a platform without numbers. -/
def noFloating : Floating Empty where
  stod _ := none
  near first _ := first.elim

/-- A comma at the end of a list leaves an empty element. -/
theorem parse_trailing_comma :
    ¬ ∀ (name line : Text), isReservedOption name = false → ',' ∈ line → '=' ∉ line →
      parse noFloating name line =
        [.replace name (.vector (Text.words (Text.trim line) [',', ' ']))] := by
  intro same
  have parsed := same "gain".toList "1,2,".toList (by decide) (by decide) (by decide)
  have values := congrArg (List.map Assignment.value) parsed
  exact absurd values (by decide)

/-- Delimiters inside of a list, and spaces at its ends, leave its words. -/
theorem parse_words_inside :
    parse noFloating "gain".toList " 1, 2,,3 ".toList =
      [.replace "gain".toList (.vector ["1".toList, "2".toList, "3".toList])] :=
  (parse_words_iff noFloating (by decide) (by decide) (by decide)).mpr
    ⟨by decide, by decide⟩

end Parameter

end NestDaq
