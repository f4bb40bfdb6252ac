import Mathlib.Order.Lattice
import NestDaq.Text.Core

/-!
# Glob patterns

The glob-style patterns of the key-value server: `*` for any text, `?` for any
character, `[...]` and `[^...]` for a character class with ranges, and `\` to
take the next character literally. A pattern compiles to a list of tokens. A block
without special characters matches itself only.
-/

namespace NestDaq.Glob

/-- One element of a compiled pattern. -/
inductive Token where
  | literal (char : Char)
  | anyChar
  | anyText
  | oneOf (negated : Bool) (ranges : List (Char × Char))
  deriving DecidableEq

/-- The ranges of a character class and the pattern after its closing bracket,
with a bound on the number of ranges. An unterminated class reaches the end of
the pattern. -/
def parseClass : Nat → Text → List (Char × Char) × Text
  | 0, pattern => ([], pattern)
  | _ + 1, [] => ([], [])
  | fuel + 1, '\\' :: second :: rest =>
      let (ranges, rest) := parseClass fuel rest
      ((second, second) :: ranges, rest)
  | _ + 1, ']' :: rest => ([], rest)
  | fuel + 1, first :: '-' :: last :: rest =>
      let (ranges, rest) := parseClass fuel rest
      ((min first last, max first last) :: ranges, rest)
  | fuel + 1, first :: rest =>
      let (ranges, rest) := parseClass fuel rest
      ((first, first) :: ranges, rest)

/-- Compile a pattern with a bound on the number of its tokens. -/
def compileWith : Nat → Text → List Token
  | 0, _ => []
  | _ + 1, [] => []
  | fuel + 1, char :: rest =>
      if char = '*' then .anyText :: compileWith fuel rest
      else if char = '?' then .anyChar :: compileWith fuel rest
      else if char = '[' then
        match rest with
        | '^' :: rest => .oneOf true (parseClass fuel rest).1 ::
          compileWith fuel (parseClass fuel rest).2
        | rest => .oneOf false (parseClass fuel rest).1 :: compileWith fuel (parseClass fuel rest).2
      else if char = '\\' then
        match rest with
        | next :: rest => .literal next :: compileWith fuel rest
        | [] => [.literal char]
      else .literal char :: compileWith fuel rest

/-- A pattern has at most as many tokens as characters. -/
def compile (pattern : Text) : List Token :=
  compileWith pattern.length pattern

/-- The single characters a token accepts. -/
def Token.acceptsChar : Token → Char → Bool
  | .literal expected, char => expected == char
  | .anyChar, _ => true
  | .anyText, _ => false
  | .oneOf negated ranges, char =>
      negated != ranges.any fun range => range.1 ≤ char && char ≤ range.2

/-- Some suffix of the text is accepted. -/
def someSuffix (accepted : Text → Bool) : Text → Bool
  | [] => accepted []
  | char :: rest => accepted (char :: rest) || someSuffix accepted rest

/-- Match a compiled pattern against a whole text. -/
def accepts : List Token → Text → Bool
  | [], text => text.isEmpty
  | .anyText :: tokens, text => someSuffix (accepts tokens) text
  | _ :: _, [] => false
  | token :: tokens, char :: rest => token.acceptsChar char && accepts tokens rest

/-- `stringmatch` of the server. -/
def stringmatch (pattern text : Text) : Bool :=
  accepts (compile pattern) text

theorem someSuffix_iff (accepted : Text → Bool) (text : Text) :
    someSuffix accepted text ↔ ∃ before rest, text = before ++ rest ∧ accepted rest := by
  induction text with
  | nil =>
      constructor
      · intro accept
        exact ⟨[], [], rfl, accept⟩
      · rintro ⟨before, rest, split, accept⟩
        obtain ⟨-, rfl⟩ := List.append_eq_nil_iff.mp split.symm
        exact accept
  | cons char text ih =>
      rw [someSuffix, Bool.or_eq_true, ih]
      constructor
      · rintro (accept | ⟨before, rest, rfl, accept⟩)
        · exact ⟨[], char :: text, rfl, accept⟩
        · exact ⟨char :: before, rest, rfl, accept⟩
      · rintro ⟨before, rest, split, accept⟩
        cases before with
        | nil =>
            left
            rw [List.nil_append] at split
            exact split ▸ accept
        | cons first before =>
            right
            obtain ⟨-, rfl⟩ := List.cons.inj split
            exact ⟨before, rest, rfl, accept⟩

/-! ## Literal blocks -/

/-- The characters with a meaning of their own in a pattern. -/
def special : Text := ['*', '?', '[', '\\']

/-- A text that a pattern takes literally. -/
def Plain (text : Text) : Prop :=
  ∀ char ∈ text, char ∉ special

instance (text : Text) : Decidable (Plain text) :=
  inferInstanceAs (Decidable (∀ char ∈ text, char ∉ special))

theorem Plain.append {first second : Text} (firstPlain : Plain first)
    (secondPlain : Plain second) : Plain (first ++ second) := by
  intro char member
  rcases List.mem_append.mp member with member | member
  · exact firstPlain char member
  · exact secondPlain char member

theorem Plain.cons {char : Char} {text : Text} (ordinary : char ∉ special) (plain : Plain text) :
    Plain (char :: text) := by
  intro other member
  rcases List.mem_cons.mp member with rfl | member
  · exact ordinary
  · exact plain other member

theorem plain_append_iff {first second : Text} :
    Plain (first ++ second) ↔ Plain first ∧ Plain second := by
  constructor
  · intro plain
    exact ⟨fun char member => plain char (List.mem_append_left _ member),
      fun char member => plain char (List.mem_append_right _ member)⟩
  · rintro ⟨firstPlain, secondPlain⟩
    exact firstPlain.append secondPlain

theorem plain_cons_iff {char : Char} {text : Text} :
    Plain (char :: text) ↔ char ∉ special ∧ Plain text := by
  constructor
  · intro plain
    exact ⟨plain char List.mem_cons_self,
      fun other member => plain other (List.mem_cons_of_mem _ member)⟩
  · rintro ⟨ordinary, plain⟩
    exact plain.cons ordinary

theorem compile_cons_plain {char : Char} (plain : char ∉ special) (pattern : Text) :
    compile (char :: pattern) = .literal char :: compile pattern := by
  simp only [special, List.mem_cons, List.not_mem_nil, or_false, not_or] at plain
  simp [compile, compileWith, plain]

@[simp]
theorem stringmatch_nil (text : Text) : stringmatch [] text ↔ text = [] := by
  simp [stringmatch, compile, compileWith, accepts]

/-- `*` stands for any text. -/
theorem stringmatch_star (pattern text : Text) :
    stringmatch ('*' :: pattern) text ↔
      ∃ before rest, text = before ++ rest ∧ stringmatch pattern rest := by
  simp only [stringmatch, compile, List.length_cons, compileWith, if_true, accepts]
  exact someSuffix_iff _ _

/-- A literal block is matched by itself only. -/
theorem stringmatch_plain_append {block : Text} (plain : Plain block) (pattern text : Text) :
    stringmatch (block ++ pattern) text ↔
      ∃ rest, text = block ++ rest ∧ stringmatch pattern rest := by
  induction block generalizing text with
  | nil => simp
  | cons char block ih =>
      have charPlain : char ∉ special := plain char List.mem_cons_self
      have blockPlain : Plain block := fun c member => plain c (List.mem_cons_of_mem _ member)
      cases text with
      | nil =>
          simp [stringmatch, compile_cons_plain charPlain, accepts]
      | cons first text =>
          have tail := ih blockPlain text
          simp only [stringmatch] at tail
          simp only [stringmatch, List.cons_append, compile_cons_plain charPlain, accepts,
            Token.acceptsChar, Bool.and_eq_true, beq_iff_eq, tail, List.cons.injEq]
          constructor
          · rintro ⟨rfl, rest, rfl, accept⟩
            exact ⟨rest, ⟨rfl, rfl⟩, accept⟩
          · rintro ⟨rest, ⟨rfl, rfl⟩, accept⟩
            exact ⟨rfl, rest, rfl, accept⟩

/-- `*` in front of a literal character. -/
theorem stringmatch_star_cons {char : Char} (plain : char ∉ special) (pattern text : Text) :
    stringmatch ('*' :: char :: pattern) text ↔
      ∃ before after, text = before ++ char :: after ∧ stringmatch pattern after := by
  have block : Plain [char] := by simpa [Plain] using plain
  rw [stringmatch_star]
  constructor
  · rintro ⟨before, rest, rfl, matched⟩
    obtain ⟨after, rfl, accept⟩ := (stringmatch_plain_append block pattern rest).mp matched
    exact ⟨before, after, rfl, accept⟩
  · rintro ⟨before, after, rfl, accept⟩
    exact ⟨before, char :: after, rfl,
      (stringmatch_plain_append block pattern _).mpr ⟨after, rfl, accept⟩⟩

@[simp]
theorem stringmatch_anyText (text : Text) : stringmatch ['*'] text :=
  (stringmatch_star [] text).mpr ⟨text, [], by simp, (stringmatch_nil []).mpr rfl⟩

theorem stringmatch_plain {block : Text} (plain : Plain block) (text : Text) :
    stringmatch block text ↔ text = block := by
  have whole := stringmatch_plain_append plain [] text
  simpa using whole

/-- Every character of a pattern of literals and `*` occurs in the texts it accepts. -/
theorem mem_of_stringmatch {pattern text : Text} {char : Char}
    (simple : ∀ other ∈ pattern, other = '*' ∨ other ∉ special) (member : char ∈ pattern)
    (notStar : char ≠ '*') (accept : stringmatch pattern text) : char ∈ text := by
  induction pattern generalizing text with
  | nil => simp at member
  | cons first pattern ih =>
      have simpleRest := fun other inRest => simple other (List.mem_cons_of_mem _ inRest)
      rcases simple first List.mem_cons_self with rfl | plain
      · obtain ⟨before, rest, rfl, matched⟩ := (stringmatch_star pattern text).mp accept
        have inPattern := (List.mem_cons.mp member).resolve_left notStar
        exact List.mem_append_right _ (ih simpleRest inPattern matched)
      · have block : Plain [first] := by simpa [Plain] using plain
        obtain ⟨rest, rfl, matched⟩ := (stringmatch_plain_append block pattern text).mp accept
        rcases List.mem_cons.mp member with rfl | inPattern
        · exact List.mem_cons_self
        · exact List.mem_cons_of_mem _ (ih simpleRest inPattern matched)

/-- A pattern with one `*` fixes both ends of the text. -/
theorem stringmatch_around {before after : Text} (beforePlain : Plain before)
    (afterPlain : Plain after) (text : Text) :
    stringmatch (before ++ '*' :: after) text ↔ ∃ middle, text = before ++ middle ++ after := by
  rw [stringmatch_plain_append beforePlain]
  constructor
  · rintro ⟨rest, rfl, matched⟩
    obtain ⟨middle, tail, rfl, tailMatched⟩ := (stringmatch_star after rest).mp matched
    rw [(stringmatch_plain afterPlain tail).mp tailMatched]
    exact ⟨middle, by rw [List.append_assoc]⟩
  · rintro ⟨middle, rfl⟩
    refine ⟨middle ++ after, by rw [List.append_assoc], ?_⟩
    exact (stringmatch_star after _).mpr
      ⟨middle, after, rfl, (stringmatch_plain afterPlain _).mpr rfl⟩

example : stringmatch "h[^a-c]l\\*o?".toList "hel*o!".toList := by decide

/-! ## The shortest accepted texts -/

/-- The number of tokens that take one character each. -/
def width : List Token → Nat
  | [] => 0
  | .anyText :: tokens => width tokens
  | _ :: tokens => width tokens + 1

/-- A pattern that accepts a text accepts one without a character for `*`. -/
theorem exists_accepted_of_width {tokens : List Token} {text : Text}
    (accepted : accepts tokens text) :
    ∃ short, accepts tokens short ∧ short.length = width tokens := by
  induction tokens generalizing text with
  | nil => exact ⟨[], rfl, rfl⟩
  | cons token tokens ih =>
      cases token with
      | anyText =>
          rw [accepts, someSuffix_iff] at accepted
          rcases accepted with ⟨before, rest, rfl, accepted⟩
          rcases ih accepted with ⟨short, shortAccepted, length⟩
          refine ⟨short, ?_, length⟩
          rw [accepts, someSuffix_iff]
          exact ⟨[], short, rfl, shortAccepted⟩
      | literal | anyChar | oneOf =>
          cases text with
          | nil => cases accepted
          | cons char rest =>
              rw [accepts, Bool.and_eq_true] at accepted
              case x_2 => simp
              rcases ih accepted.2 with ⟨short, shortAccepted, length⟩
              refine ⟨char :: short, ?_, ?_⟩
              · rw [accepts, accepted.1, shortAccepted]
                · rfl
                · simp
              · rw [List.length_cons, length, width]
                simp

/-- What follows a character class is an end of the pattern. -/
theorem parseClass_suffix (fuel : Nat) (pattern : Text) :
    (parseClass fuel pattern).2 <:+ pattern := by
  fun_induction parseClass fuel pattern with
  | case1 pattern => exact List.suffix_rfl
  | case2 => exact List.suffix_rfl
  | case3 fuel second rest ranges after parsed ih =>
      rw [parsed] at ih
      exact (ih.trans (List.suffix_cons _ _)).trans (List.suffix_cons _ _)
  | case4 => exact List.suffix_cons _ _
  | case5 fuel first last rest _ _ ranges after parsed ih =>
      rw [parsed] at ih
      exact ((ih.trans (List.suffix_cons _ _)).trans (List.suffix_cons _ _)).trans
        (List.suffix_cons _ _)
  | case6 fuel first rest _ _ _ ranges after parsed ih =>
      rw [parsed] at ih
      exact ih.trans (List.suffix_cons _ _)

/-- A character class takes one character at least. -/
theorem parseClass_suffix_tail {fuel : Nat} (positive : 0 < fuel) (pattern : Text) :
    (parseClass fuel pattern).2 <:+ pattern.tail := by
  fun_cases parseClass fuel pattern with
  | case1 => exact absurd positive (Nat.lt_irrefl 0)
  | case2 => exact List.suffix_rfl
  | case3 fuel second rest ranges after parsed =>
      have behind := parseClass_suffix fuel rest
      rw [parsed] at behind
      exact behind.trans (List.suffix_cons _ _)
  | case4 => exact List.suffix_rfl
  | case5 fuel first last rest _ _ ranges after parsed =>
      have behind := parseClass_suffix fuel rest
      rw [parsed] at behind
      exact (behind.trans (List.suffix_cons _ _)).trans (List.suffix_cons _ _)
  | case6 fuel first rest _ _ _ ranges after parsed =>
      have behind := parseClass_suffix fuel rest
      rw [parsed] at behind
      exact behind

/-- Only `*` can be the last character. -/
def Starred (pattern : Text) : Prop :=
  ∀ last, pattern.getLast? = some last → last = '*'

theorem Starred.of_suffix {pattern rest : Text} (starred : Starred pattern)
    (suffix : rest <:+ pattern) : Starred rest := by
  intro last isLast
  rcases suffix with ⟨front, rfl⟩
  apply starred
  rw [List.getLast?_append, isLast]
  rfl

theorem Starred.of_cons {char : Char} {rest : Text} (starred : Starred (char :: rest)) :
    Starred rest :=
  starred.of_suffix (List.suffix_cons _ _)

/-- Another character than `*` is followed by one. -/
theorem Starred.length_pos {char : Char} {rest : Text} (starred : Starred (char :: rest))
    (ordinary : char ≠ '*') : 0 < rest.length := by
  cases rest with
  | nil => exact absurd (starred char rfl) ordinary
  | cons => exact Nat.succ_pos _

/-- The last `*` takes no character. -/
theorem width_compileWith_le {fuel : Nat} {pattern : Text} (starred : Starred pattern) :
    width (compileWith fuel pattern) ≤ pattern.length - 1 := by
  fun_induction compileWith fuel pattern with
  | case1 => exact Nat.zero_le _
  | case2 => exact Nat.zero_le _
  | case3 fuel rest ih =>
      have bound := ih starred.of_cons
      rw [width, List.length_cons]
      omega
  | case4 fuel rest _ ih =>
      have bound := ih starred.of_cons
      have more := starred.length_pos (by decide)
      change width (compileWith fuel rest) + 1 ≤ rest.length
      omega
  | case5 fuel rest _ _ ih =>
      have suffix := parseClass_suffix fuel rest
      have bound := ih (starred.of_cons.of_cons.of_suffix suffix)
      have shorter := suffix.length_le
      change width (compileWith fuel (parseClass fuel rest).2) + 1 ≤ rest.length + 1
      omega
  | case6 fuel rest _ _ _ ih =>
      have suffix := parseClass_suffix fuel rest
      have bound := ih (starred.of_cons.of_suffix suffix)
      have shorter := suffix.length_le
      have more := starred.length_pos (by decide)
      change width (compileWith fuel (parseClass fuel rest).2) + 1 ≤ rest.length
      omega
  | case7 fuel next rest _ _ _ ih =>
      have bound := ih starred.of_cons.of_cons
      change width (compileWith fuel rest) + 1 ≤ rest.length + 1
      omega
  | case8 => exact absurd (starred '\\' rfl) (by decide)
  | case9 fuel char rest isStar _ _ _ ih =>
      have bound := ih starred.of_cons
      have more := starred.length_pos isStar
      change width (compileWith fuel rest) + 1 ≤ rest.length
      omega

/-- A class in front of more characters is shorter than its text. -/
theorem width_compile_class_lt {rest : Text} (starred : Starred rest) (long : 2 ≤ rest.length) :
    width (compile ('[' :: rest)) < rest.length := by
  rcases rest with _ | ⟨char, rest⟩
  · cases long
  · rw [List.length_cons] at long
    by_cases negated : char = '^'
    · subst negated
      have suffix := parseClass_suffix (rest.length + 1) rest
      have bound := @width_compileWith_le (rest.length + 1) _ (starred.of_cons.of_suffix suffix)
      have shorter := suffix.length_le
      change width (compileWith (rest.length + 1) (parseClass (rest.length + 1) rest).2) + 1 <
        rest.length + 1
      omega
    · have positive : 0 < rest.length + 1 := Nat.succ_pos _
      have suffix := parseClass_suffix_tail positive (char :: rest)
      have bound := @width_compileWith_le (rest.length + 1) _ (starred.of_cons.of_suffix suffix)
      have shorter := suffix.length_le
      have compiled : compile ('[' :: char :: rest) =
          .oneOf false (parseClass (rest.length + 1) (char :: rest)).1 ::
            compileWith (rest.length + 1) (parseClass (rest.length + 1) (char :: rest)).2 := by
        simp [compile, compileWith, negated]
      rw [compiled, List.length_cons]
      change width (compileWith (rest.length + 1) (parseClass (rest.length + 1) (char :: rest)).2) +
        1 < rest.length + 1
      rw [List.tail_cons] at shorter
      omega

/-- An escaped character in front of more characters is shorter than its text. -/
theorem width_compile_escape_lt {rest : Text} (starred : Starred rest) (long : 2 ≤ rest.length) :
    width (compile ('\\' :: rest)) < rest.length := by
  rcases rest with _ | ⟨char, rest⟩
  · cases long
  · have bound := @width_compileWith_le (rest.length + 1) rest starred.of_cons
    change width (compileWith (rest.length + 1) rest) + 1 < rest.length + 1
    rw [List.length_cons] at long
    omega

theorem starred_concat (block : Text) : Starred (block ++ ['*']) := by
  intro last isLast
  rw [List.getLast?_concat, Option.some.injEq] at isLast
  exact isLast.symm

/-- A pattern that stands for the texts behind a block has no accepted text that is shorter. -/
theorem length_le_width {block : Text} {pattern : Text}
    (behind : ∀ text, stringmatch pattern text ↔ block <+: text) :
    block.length ≤ width (compile pattern) := by
  have self : stringmatch pattern block := (behind block).mpr List.prefix_rfl
  rcases exists_accepted_of_width self with ⟨short, accepted, length⟩
  rw [← length]
  exact ((behind short).mp accepted).length_le

theorem stringmatch_anyChar (pattern text : Text) (char : Char) :
    stringmatch ('?' :: pattern) (char :: text) ↔ stringmatch pattern text := by
  simp [stringmatch, compile, compileWith, accepts, Token.acceptsChar]

/-- A block that begins with a special character does not only stand for the texts behind it. -/
theorem not_forall_stringmatch_special {char : Char} (isSpecial : char ∈ special)
    (block : Text) :
    ¬ ∀ text, stringmatch (char :: block ++ ['*']) text ↔ char :: block <+: text := by
  intro behind
  have self : stringmatch (char :: block ++ ['*']) (char :: block) :=
    (behind _).mpr List.prefix_rfl
  have starred := starred_concat block
  have short := length_le_width behind
  have size : (block ++ ['*']).length = block.length + 1 := List.length_append
  simp only [special, List.mem_cons, List.not_mem_nil, or_false] at isSpecial
  rcases isSpecial with rfl | rfl | rfl | rfl
  · -- `*` stands for one more character
    rcases (stringmatch_star _ _).mp self with ⟨before, rest, whole, matched⟩
    have longer : stringmatch ('*' :: block ++ ['*']) ('x' :: '*' :: block) := by
      apply (stringmatch_star _ _).mpr
      exact ⟨'x' :: before, rest, congrArg (List.cons 'x') whole, matched⟩
    exact absurd (List.cons_prefix_cons.mp ((behind _).mp longer)).1 (by decide)
  · -- `?` stands for another character
    have other : stringmatch ('?' :: block ++ ['*']) ('x' :: block) :=
      (stringmatch_anyChar _ _ _).mpr ((stringmatch_anyChar _ _ _).mp self)
    exact absurd (List.cons_prefix_cons.mp ((behind _).mp other)).1 (by decide)
  · rcases block with _ | ⟨first, block⟩
    · exact absurd self (by decide)
    · have less := width_compile_class_lt starred (by simp)
      rw [size] at less
      exact absurd short (Nat.not_le.mpr less)
  · rcases block with _ | ⟨first, block⟩
    · exact absurd self (by decide)
    · have less := width_compile_escape_lt starred (by simp)
      rw [size] at less
      exact absurd short (Nat.not_le.mpr less)

/-- A block and `*` stand for the texts behind the block, if and only if it has no special
character. -/
theorem forall_stringmatch_iff_prefix_iff {block : Text} :
    (∀ text, stringmatch (block ++ ['*']) text ↔ block <+: text) ↔ Plain block := by
  constructor
  · intro behind
    induction block with
    | nil => exact fun char member => absurd member List.not_mem_nil
    | cons char block ih =>
        by_cases ordinary : char ∉ special
        · apply Plain.cons ordinary
          apply ih
          intro text
          have single : Plain [char] := by simpa [Plain] using ordinary
          have further := behind (char :: text)
          rw [List.cons_prefix_cons, and_iff_right rfl] at further
          rw [← further]
          have first := stringmatch_plain_append single (block ++ ['*']) (char :: text)
          rw [List.singleton_append] at first
          rw [List.cons_append, first]
          simp
        · exact absurd behind (not_forall_stringmatch_special (not_not.mp ordinary) block)
  · intro plain text
    rw [stringmatch_plain_append plain]
    constructor
    · rintro ⟨rest, rfl, -⟩
      exact List.prefix_append _ _
    · rintro ⟨rest, rfl⟩
      exact ⟨rest, rfl, stringmatch_anyText rest⟩

end NestDaq.Glob
