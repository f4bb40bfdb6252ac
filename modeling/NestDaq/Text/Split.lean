import Mathlib.Data.List.Infix
import NestDaq.Text.Core

/-!
# Parts between delimiters

How `split` acts on texts that are put together, what its first and its last part tell
about the text, and how it inverts `join`; and what is left of the parts when adjacent
delimiters are compressed.
-/

namespace NestDaq.Text

variable {text delimiters : Text}

/-- A pattern is found exactly where it occurs. -/
theorem isSome_find_iff {text pattern : Text} : (find text pattern).isSome ↔ pattern <:+: text := by
  induction text with
  | nil => by_cases none : pattern = [] <;> simp [find, none]
  | cons char rest ih =>
      rw [List.infix_cons_iff, find]
      split_ifs with here
      · exact iff_of_true rfl (Or.inl here)
      · rw [Option.isSome_map, ih, or_iff_right here]

/-- A character is found in a text that has it. -/
theorem find_ne_none_iff {char : Char} : find text [char] ≠ none ↔ char ∈ text := by
  rw [Option.ne_none_iff_isSome, isSome_find_iff, List.singleton_infix_iff]

/-- A pattern is found no later than where it occurs. -/
theorem exists_find_le (before pattern after : Text) :
    ∃ position ≤ before.length, find (before ++ (pattern ++ after)) pattern = some position := by
  induction before with
  | nil => exact ⟨0, Nat.le_refl _, find_of_prefix (List.prefix_append _ _)⟩
  | cons char before ih =>
      rcases ih with ⟨position, below, found⟩
      by_cases here : pattern <+: char :: (before ++ (pattern ++ after))
      · exact ⟨0, Nat.zero_le _, find_of_prefix here⟩
      · refine ⟨position + 1, Nat.succ_le_succ below, ?_⟩
        rw [List.cons_append, find_cons_of_not_prefix here, found]
        rfl

theorem split_nil (delimiters : Text) : split [] delimiters = [[]] :=
  List.splitOnP_nil

theorem split_cons_of_mem {char : Char} (isDelimiter : char ∈ delimiters) (rest : Text) :
    split (char :: rest) delimiters = [] :: split rest delimiters := by
  rw [split, List.splitOnP_cons_eq_if_modifyHead, if_pos (decide_eq_true isDelimiter), split]

theorem split_cons_of_notMem {char : Char} (notDelimiter : char ∉ delimiters) {first : Text}
    {rest : Text} {parts : List Text} (parted : split rest delimiters = first :: parts) :
    split (char :: rest) delimiters = (char :: first) :: parts := by
  rw [split] at parted
  rw [split, List.splitOnP_cons_eq_if_modifyHead, if_neg (by simpa using notDelimiter), parted,
    List.modifyHead_cons]

theorem split_ne_nil (text delimiters : Text) : split text delimiters ≠ [] :=
  List.splitOnP_ne_nil _ _

theorem exists_split_eq_cons (text delimiters : Text) :
    ∃ first parts, split text delimiters = first :: parts :=
  List.exists_cons_of_ne_nil (split_ne_nil text delimiters)

theorem exists_split_eq_concat (text delimiters : Text) :
    ∃ front last, split text delimiters = front ++ [last] :=
  ⟨_, _, (List.dropLast_concat_getLast (split_ne_nil text delimiters)).symm⟩

/-- A text without delimiters is its only part. -/
theorem split_of_free (free : ∀ char ∈ text, char ∉ delimiters) :
    split text delimiters = [text] := by
  apply List.splitOnP_eq_singleton
  intro char member
  exact decide_eq_false (free char member)

theorem split_of_notMem {separator : Char} (notMem : separator ∉ text) :
    split text [separator] = [text] := by
  apply split_of_free
  intro char member isSeparator
  rw [List.mem_singleton.mp isSeparator] at member
  exact notMem member

/-- In a longer text the last part of the front and the first part behind it are one. -/
theorem split_append {first second : Text} {front parts : List Text} {last head : Text}
    (before : split first delimiters = front ++ [last])
    (after : split second delimiters = head :: parts) :
    split (first ++ second) delimiters = front ++ (last ++ head) :: parts := by
  induction first generalizing front last with
  | nil =>
      rw [split_nil] at before
      rcases List.append_eq_singleton_iff.mp before.symm with ⟨rfl, single⟩ | ⟨_, none⟩
      · cases single
        exact after
      · cases none
  | cons char first ih =>
      by_cases isDelimiter : char ∈ delimiters
      · rw [split_cons_of_mem isDelimiter] at before
        cases front with
        | nil =>
            rw [List.nil_append, List.cons.injEq] at before
            exact absurd before.2 (split_ne_nil _ _)
        | cons other front =>
            rw [List.cons_append, List.cons.injEq] at before
            rcases before with ⟨rfl, before⟩
            rw [List.cons_append, split_cons_of_mem isDelimiter, ih before, List.cons_append]
      · rcases exists_split_eq_cons first delimiters with ⟨start, rest, parted⟩
        rw [split_cons_of_notMem isDelimiter parted] at before
        cases front with
        | nil =>
            rw [List.nil_append, List.cons.injEq] at before
            rcases before with ⟨rfl, rfl⟩
            have joined := @ih [] start parted
            exact split_cons_of_notMem isDelimiter joined
        | cons other front =>
            rw [List.cons_append, List.cons.injEq] at before
            rcases before with ⟨rfl, rfl⟩
            have joined := @ih (start :: front) last parted
            exact split_cons_of_notMem isDelimiter joined

/-- A delimiter separates the parts in front of it from those behind it. -/
theorem split_append_delimiter {char : Char} (isDelimiter : char ∈ delimiters)
    (first second : Text) :
    split (first ++ char :: second) delimiters =
      split first delimiters ++ split second delimiters := by
  rcases exists_split_eq_concat first delimiters with ⟨front, last, before⟩
  rw [split_append before (split_cons_of_mem isDelimiter second), before]
  simp

/-- The parts hold no delimiter. -/
theorem notMem_of_mem_split {part : Text} (member : part ∈ split text delimiters) {char : Char}
    (inPart : char ∈ part) : char ∉ delimiters := by
  induction text generalizing part with
  | nil =>
      rw [split_nil, List.mem_singleton] at member
      subst member
      cases inPart
  | cons first text ih =>
      by_cases isDelimiter : first ∈ delimiters
      · rw [split_cons_of_mem isDelimiter] at member
        rcases List.mem_cons.mp member with rfl | member
        · cases inPart
        · exact ih member inPart
      · rcases exists_split_eq_cons text delimiters with ⟨start, rest, parted⟩
        rw [split_cons_of_notMem isDelimiter parted] at member
        rw [parted] at ih
        rcases List.mem_cons.mp member with rfl | member
        · rcases List.mem_cons.mp inPart with rfl | inPart
          · exact isDelimiter
          · exact ih List.mem_cons_self inPart
        · exact ih (List.mem_cons_of_mem _ member) inPart

/-- What stands in front of the first delimiter is the first part. -/
theorem split_append_cons {separator : Char} {part : Text} (free : separator ∉ part) (rest : Text) :
    split (part ++ separator :: rest) [separator] = part :: split rest [separator] := by
  rw [split_append_delimiter List.mem_cons_self, split_of_notMem free, List.singleton_append]

theorem join_cons (first : Text) (parts : List Text) (separator : Text) :
    join (first :: parts) separator = first ++ parts.flatMap (separator ++ ·) := by
  induction parts generalizing first with
  | nil => simp
  | cons second parts ih => rw [join_cons_cons, ih, List.append_assoc, List.flatMap_cons,
      List.append_assoc]

/-- A text in front of the first part belongs to the separator between the others. -/
theorem append_join {parts : List Text} (nonempty : parts ≠ []) (front separator : Text) :
    front ++ join parts (separator ++ front) = join (parts.map (front ++ ·)) separator := by
  cases parts with
  | nil => exact absurd rfl nonempty
  | cons first parts =>
      rw [List.map_cons, join_cons, join_cons, List.flatMap_map, List.append_assoc]
      simp only [List.append_assoc]

/-- Parts that are joined with a delimiter are split one by one. -/
theorem split_join_eq_flatMap {delimiter : Char} {parts : List Text} (nonempty : parts ≠ []) :
    split (join parts [delimiter]) [delimiter] = parts.flatMap (split · [delimiter]) := by
  induction parts with
  | nil => exact absurd rfl nonempty
  | cons part parts ih =>
      cases parts with
      | nil => rw [join_singleton, List.flatMap_singleton]
      | cons second parts =>
          rw [join_cons_cons, List.append_assoc, List.singleton_append,
            split_append_delimiter List.mem_cons_self, ih (List.cons_ne_nil _ _)]
          rfl

/-- Splitting at a delimiter inverts joining with it. -/
theorem split_join {delimiter : Char} {parts : List Text} (nonempty : parts ≠ [])
    (free : ∀ part ∈ parts, delimiter ∉ part) :
    split (join parts [delimiter]) [delimiter] = parts := by
  rw [split_join_eq_flatMap nonempty]
  clear nonempty
  induction parts with
  | nil => rfl
  | cons part parts ih =>
      rw [List.flatMap_cons, split_of_notMem (free part List.mem_cons_self),
        ih fun part member => free part (List.mem_cons_of_mem _ member), List.singleton_append]

/-- The first part is empty when a delimiter comes first. -/
theorem head?_split_eq_nil_iff :
    (split text delimiters).head? = some [] ↔
      text = [] ∨ ∃ char ∈ delimiters, text.head? = some char := by
  cases text with
  | nil => simp [split_nil]
  | cons char text =>
      by_cases isDelimiter : char ∈ delimiters
      · rw [split_cons_of_mem isDelimiter]
        simpa using isDelimiter
      · rcases exists_split_eq_cons text delimiters with ⟨start, rest, parted⟩
        rw [split_cons_of_notMem isDelimiter parted]
        simpa using isDelimiter

/-- The last part is empty when a delimiter comes last. -/
theorem getLast?_split_eq_nil_iff :
    (split text delimiters).getLast? = some [] ↔
      text = [] ∨ ∃ char ∈ delimiters, text.getLast? = some char := by
  rcases List.eq_nil_or_concat text with rfl | ⟨front, char, rfl⟩
  · simp [split_nil]
  · rw [List.concat_eq_append]
    rcases exists_split_eq_concat front delimiters with ⟨parts, last, before⟩
    by_cases isDelimiter : char ∈ delimiters
    · have after := split_cons_of_mem isDelimiter []
      rw [split_nil] at after
      rw [split_append before after]
      simpa using isDelimiter
    · have after := split_cons_of_notMem isDelimiter (split_nil delimiters)
      rw [split_append before after]
      simpa using isDelimiter

/-- Drop the empty parts but a last one. -/
def compress : List Text → List Text
  | [] => []
  | [part] => [part]
  | part :: rest => if part = [] then compress rest else part :: compress rest

/-- `boost::split` with `token_compress_on`: adjacent delimiters are one. -/
def splitCompress (text delimiters : Text) : List Text :=
  match split text delimiters with
  | [] => []
  | first :: rest => first :: compress rest

/-- The maximal runs of characters that are no delimiters. -/
def words (text delimiters : Text) : List Text :=
  (split text delimiters).filter (· ≠ [])

/-- A delimiter separates the words in front of it from those behind it. -/
theorem words_append_delimiter {char : Char} (isDelimiter : char ∈ delimiters)
    (first second : Text) :
    words (first ++ char :: second) delimiters =
      words first delimiters ++ words second delimiters := by
  rw [words, split_append_delimiter isDelimiter, List.filter_append, words, words]

/-- Delimiters in front of a text are none of its words. -/
theorem words_append_of_delimiters {block : Text} (all : ∀ char ∈ block, char ∈ delimiters)
    (text : Text) : words (block ++ text) delimiters = words text delimiters := by
  induction block with
  | nil => rfl
  | cons char block ih =>
      have separated := words_append_delimiter (all char List.mem_cons_self) [] (block ++ text)
      rw [List.nil_append] at separated
      rw [List.cons_append, separated,
        ih fun other member => all other (List.mem_cons_of_mem _ member), words, split_nil]
      rfl

/-- A text without delimiters is its only word. -/
theorem words_of_free (nonempty : text ≠ []) (free : ∀ char ∈ text, char ∉ delimiters) :
    words text delimiters = [text] := by
  rw [words, split_of_free free, List.filter_cons_of_pos (by simpa using nonempty), List.filter_nil]

/-- Nothing is dropped when no part is empty. -/
theorem compress_of_nil_notMem {parts : List Text} (nonempty : [] ∉ parts) :
    compress parts = parts := by
  induction parts with
  | nil => rfl
  | cons part parts ih =>
      rw [List.mem_cons, not_or] at nonempty
      cases parts with
      | nil => rfl
      | cons second parts =>
          rw [compress, if_neg fun empty => nonempty.1 empty.symm, ih nonempty.2]
          exact List.cons_ne_nil _ _

theorem splitCompress_of_nil_notMem (nonempty : [] ∉ split text delimiters) :
    splitCompress text delimiters = split text delimiters := by
  rcases exists_split_eq_cons text delimiters with ⟨first, parts, parted⟩
  rw [parted, List.mem_cons, not_or] at nonempty
  rw [splitCompress, parted]
  exact congrArg (List.cons first) (compress_of_nil_notMem nonempty.2)

/-- Only a last empty part is kept. -/
theorem compress_eq_filter_iff (parts : List Text) :
    compress parts = parts.filter (· ≠ []) ↔ parts.getLast? ≠ some [] := by
  induction parts with
  | nil => simp [compress]
  | cons part parts ih =>
      cases parts with
      | nil =>
          by_cases empty : part = []
          · simp [compress, empty]
          · simp [compress, empty]
      | cons second parts =>
          rw [List.getLast?_cons_cons, ← ih]
          by_cases empty : part = []
          · rw [compress, if_pos empty, List.filter_cons_of_neg (by simpa using empty)]
            exact List.cons_ne_nil _ _
          · rw [compress, if_neg empty, List.filter_cons_of_pos (by simpa using empty),
              List.cons.injEq, and_iff_right rfl]
            exact List.cons_ne_nil _ _

/-- Compressed delimiters leave the words when there is none at either end. -/
theorem splitCompress_eq_words_iff (text delimiters : Text) :
    splitCompress text delimiters = words text delimiters ↔
      text ≠ [] ∧ ∀ char ∈ delimiters, text.head? ≠ some char ∧ text.getLast? ≠ some char := by
  have ends : (text ≠ [] ∧ ∀ char ∈ delimiters,
        text.head? ≠ some char ∧ text.getLast? ≠ some char) ↔
      (split text delimiters).head? ≠ some [] ∧ (split text delimiters).getLast? ≠ some [] := by
    rw [ne_eq (split text delimiters).head?, ne_eq (split text delimiters).getLast?,
      head?_split_eq_nil_iff, getLast?_split_eq_nil_iff]
    simp only [not_or, not_exists, not_and]
    constructor
    · rintro ⟨nonempty, apart⟩
      exact ⟨⟨nonempty, fun char member => (apart char member).1⟩,
        nonempty, fun char member => (apart char member).2⟩
    · rintro ⟨⟨nonempty, first⟩, _, last⟩
      exact ⟨nonempty, fun char member => ⟨first char member, last char member⟩⟩
  rw [ends, splitCompress, words]
  rcases exists_split_eq_cons text delimiters with ⟨first, parts, parted⟩
  rw [parted]
  by_cases empty : first = []
  · -- the empty first part is kept, and no word is empty
    apply iff_of_false
    · intro same
      have member : [] ∈ (first :: parts).filter (· ≠ []) := by
        rw [← same, empty]
        exact List.mem_cons_self
      simp at member
    · simp [empty]
  · rw [List.filter_cons_of_pos (by simpa using empty), List.cons.injEq, and_iff_right rfl,
      compress_eq_filter_iff]
    cases parts with
    | nil => simp [empty]
    | cons second parts => simp [empty]

end NestDaq.Text
