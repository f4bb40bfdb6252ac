import NestDaq.Parameter.Words

/-!
# Entries of a map parameter

A text with commas and equal signs becomes a map. Its entries may stand in any order, and
there may be spaces around the commas and the equal signs: they are cut off, or belong to
the delimiters between an entry's name and its value.
-/

namespace NestDaq.Parameter

open Text (splitCompress trim isSpace words)

variable {F : Type}

/-- A key or a value that can be written in a map. -/
structure IsBare (part : Text) : Prop where
  nonempty : part ≠ []
  comma : ',' ∉ part
  equal : '=' ∉ part
  visible : ∀ char ∈ part, isSpace char = false

instance (part : Text) : Decidable (IsBare part) :=
  decidable_of_iff
    (part ≠ [] ∧ ',' ∉ part ∧ '=' ∉ part ∧ ∀ char ∈ part, isSpace char = false)
    ⟨fun ⟨nonempty, comma, equal, visible⟩ => ⟨nonempty, comma, equal, visible⟩,
      fun bare => ⟨bare.nonempty, bare.comma, bare.equal, bare.visible⟩⟩

/-- An entry of a map as it is written, with its numbers of spaces. -/
structure Entry where
  key : Text
  value : Text
  beforeKey : Nat
  behindKey : Nat
  beforeValue : Nat
  behindValue : Nat

def spaces (count : Nat) : Text :=
  List.replicate count ' '

/-- The characters between the key and the value. -/
def Entry.sign (entry : Entry) : Text :=
  spaces entry.behindKey ++ '=' :: spaces entry.beforeValue

/-- The entry without the spaces around it. -/
def Entry.core (entry : Entry) : Text :=
  entry.key ++ (entry.sign ++ entry.value)

def Entry.text (entry : Entry) : Text :=
  spaces entry.beforeKey ++ entry.core ++ spaces entry.behindValue

/-- What the entry adds to a map. -/
def Entry.field (entry : Entry) : Sigma fun _ : Text => Text :=
  ⟨entry.key, entry.value⟩

/-- The text of a map parameter. -/
def written (entries : List Entry) : Text :=
  Text.join (entries.map Entry.text) [',']

variable {entry : Entry}

theorem isSpace_of_mem_spaces {count : Nat} : ∀ char ∈ spaces count, isSpace char := by
  intro char member
  rw [List.eq_of_mem_replicate member]
  rfl

theorem comma_notMem_spaces (count : Nat) : ',' ∉ spaces count := by
  intro member
  exact absurd (isSpace_of_mem_spaces _ member) (by decide)

/-- A bare part holds none of the delimiters between a key and a value. -/
theorem IsBare.free {part : Text} (bare : IsBare part) :
    ∀ char ∈ part, char ∉ ['=', ' '] := by
  intro char member isDelimiter
  rcases List.mem_cons.mp isDelimiter with rfl | isSpace
  · exact bare.equal member
  · rw [List.mem_singleton.mp isSpace] at member
    exact absurd (bare.visible _ member) (by decide)

theorem Entry.mem_sign {char : Char} (member : char ∈ entry.sign) : char ∈ ['=', ' '] := by
  rcases List.mem_append.mp member with space | rest
  · rw [List.eq_of_mem_replicate space]
    decide
  · rcases List.mem_cons.mp rest with rfl | space
    · decide
    · rw [List.eq_of_mem_replicate space]
      decide

theorem Entry.sign_ne_nil : entry.sign ≠ [] := by
  simp [sign]

/-- The words of an entry are its key and its value. -/
theorem Entry.words_core (key : IsBare entry.key) (value : IsBare entry.value) :
    words entry.core ['=', ' '] = [entry.key, entry.value] := by
  rcases List.exists_cons_of_ne_nil (@Entry.sign_ne_nil entry) with ⟨first, rest, parted⟩
  have delimiters := @Entry.mem_sign entry
  rw [parted] at delimiters
  rw [core, parted, List.cons_append, Text.words_append_delimiter (delimiters List.mem_cons_self),
    Text.words_append_of_delimiters fun char member => delimiters (List.mem_cons_of_mem _ member),
    Text.words_of_free key.nonempty key.free, Text.words_of_free value.nonempty value.free]
  rfl

theorem Entry.head?_core (key : IsBare entry.key) : entry.core.head? = entry.key.head? := by
  rw [core, List.head?_append_of_ne_nil _ key.nonempty]

theorem Entry.getLast?_core (value : IsBare entry.value) :
    entry.core.getLast? = entry.value.getLast? := by
  rw [core, ← List.append_assoc, List.getLast?_append_of_ne_nil _ value.nonempty]

theorem Entry.core_ne_nil (key : IsBare entry.key) : entry.core ≠ [] := by
  intro empty
  exact key.nonempty (List.append_eq_nil_iff.mp empty).1

/-- The spaces around an entry are cut off. -/
theorem Entry.trim_text (key : IsBare entry.key) (value : IsBare entry.value) :
    trim entry.text = entry.core := by
  rw [text, Text.trim_append isSpace_of_mem_spaces isSpace_of_mem_spaces]
  apply Text.trim_of_ends
  · intro char first
    rw [head?_core key] at first
    exact key.visible char (List.mem_of_head? first)
  · intro char last
    rw [getLast?_core value] at last
    exact value.visible char (List.mem_of_getLast? last)

/-- A key and a value are found in an entry, whatever the spaces. -/
theorem Entry.splitCompress_core (key : IsBare entry.key) (value : IsBare entry.value) :
    splitCompress entry.core ['=', ' '] = [entry.key, entry.value] := by
  rw [← words_core key value, Text.splitCompress_eq_words_iff, head?_core key,
    getLast?_core value]
  constructor
  · exact core_ne_nil key
  · intro char isDelimiter
    constructor
    · intro first
      exact key.free char (List.mem_of_head? first) isDelimiter
    · intro last
      exact value.free char (List.mem_of_getLast? last) isDelimiter

theorem Entry.comma_notMem_text (key : IsBare entry.key) (value : IsBare entry.value) :
    ',' ∉ entry.text := by
  intro member
  rcases List.mem_append.mp member with front | space
  · rcases List.mem_append.mp front with space | inCore
    · exact comma_notMem_spaces _ space
    · rcases List.mem_append.mp inCore with inKey | rest
      · exact key.comma inKey
      · rcases List.mem_append.mp rest with inSign | inValue
        · exact absurd (mem_sign inSign) (by decide)
        · exact value.comma inValue
  · exact comma_notMem_spaces _ space

theorem Entry.equal_mem_text (entry : Entry) : '=' ∈ entry.text := by
  simp [text, core, sign]

variable {entries : List Entry}

/-- The trimmed parts between the commas are the entries without the spaces around them. -/
theorem map_trim_split_written (nonempty : entries ≠ [])
    (bare : ∀ entry ∈ entries, IsBare entry.key ∧ IsBare entry.value) :
    (Text.split (trim (written entries)) [',']).map trim = entries.map Entry.core := by
  have free : ∀ part ∈ entries.map Entry.text, ',' ∉ part := by
    intro part member
    rcases List.mem_map.mp member with ⟨entry, inEntries, rfl⟩
    exact Entry.comma_notMem_text (bare entry inEntries).1 (bare entry inEntries).2
  rw [Text.map_trim_split_trim (by decide), written,
    Text.split_join (mt List.map_eq_nil_iff.mp nonempty) free, List.map_map]
  apply List.map_congr_left
  intro entry member
  exact Entry.trim_text (bare entry member).1 (bare entry member).2

/-- No entry is lost between commas, and the key and the value of each are found. -/
theorem map_splitCompress_written (nonempty : entries ≠ [])
    (bare : ∀ entry ∈ entries, IsBare entry.key ∧ IsBare entry.value) :
    (splitCompress (trim (written entries)) [',']).map
        (fun x => splitCompress (trim x) ['=', ' ']) =
      entries.map fun entry => [entry.key, entry.value] := by
  have parts := map_trim_split_written nonempty bare
  have noneEmpty : [] ∉ Text.split (trim (written entries)) [','] := by
    intro member
    have inCores : trim [] ∈ _ := List.mem_map_of_mem member
    rw [parts] at inCores
    rcases List.mem_map.mp inCores with ⟨entry, inEntries, empty⟩
    exact Entry.core_ne_nil (bare entry inEntries).1 empty
  rw [Text.splitCompress_of_nil_notMem noneEmpty]
  calc (Text.split (trim (written entries)) [',']).map (fun x => splitCompress (trim x) ['=', ' '])
      = ((Text.split (trim (written entries)) [',']).map trim).map
          (splitCompress · ['=', ' ']) := by rw [List.map_map]; rfl
    _ = (entries.map Entry.core).map (splitCompress · ['=', ' ']) := by rw [parts]
    _ = entries.map fun entry => [entry.key, entry.value] := by
        rw [List.map_map]
        apply List.map_congr_left
        intro entry member
        exact Entry.splitCompress_core (bare entry member).1 (bare entry member).2

/-- Entries with new and distinct keys are added one by one. -/
theorem entries_foldl_addEntry {parts : List Text}
    (found : parts.map (fun x => splitCompress (trim x) ['=', ' ']) =
      entries.map fun entry => [entry.key, entry.value])
    (distinct : (entries.map Entry.key).Nodup) {m : Finmap fun _ : Text => Text}
    (new : ∀ entry ∈ entries, entry.key ∉ m) :
    (parts.foldl addEntry m).entries = ↑(entries.map Entry.field) + m.entries := by
  induction entries generalizing parts m with
  | nil =>
      rw [List.map_nil, List.map_eq_nil_iff] at found
      rw [found]
      exact (Multiset.zero_add _).symm
  | cons entry entries ih =>
      cases parts with
      | nil => cases found
      | cons part parts =>
          rw [List.map_cons, List.map_cons, List.cons.injEq] at found
          rw [List.map_cons, List.nodup_cons] at distinct
          have newKey : entry.key ∉ m := new entry List.mem_cons_self
          have added : addEntry m part = m.insert entry.key entry.value := by
            rw [addEntry, found.1]
            exact if_neg newKey
          have later : ∀ other ∈ entries, other.key ∉ m.insert entry.key entry.value := by
            intro other member inserted
            rcases Finmap.mem_insert.mp inserted with same | inMap
            · exact distinct.1 (List.mem_map.mpr ⟨other, member, same⟩)
            · exact new other (List.mem_cons_of_mem _ member) inMap
          rw [List.foldl_cons, added, ih found.2 distinct.2 later,
            Finmap.entries_insert_of_notMem newKey, List.map_cons, ← Multiset.cons_coe,
            Multiset.add_cons, Multiset.cons_add]
          rfl

/-- A map of bare keys and values is read back from its text, in whatever order its entries
stand and however many spaces are around the commas and the equal signs. -/
theorem parse_written (floating : Floating F) {name : Text}
    (free : isReservedOption name = false) {m : Finmap fun _ : Text => Text}
    (several : 2 ≤ Multiset.card m.entries)
    (bare : ∀ field ∈ m.entries, IsBare field.1 ∧ IsBare field.2)
    (listed : m.entries = ↑(entries.map Entry.field)) :
    parse floating name (written entries) = [.replace name (.map m)] := by
  have keys : entries.map Entry.key = (entries.map Entry.field).map Sigma.fst := by
    rw [List.map_map]
    rfl
  have distinct : (entries.map Entry.key).Nodup := by
    have nodup := m.nodupKeys
    rw [listed, Multiset.coe_nodupKeys] at nodup
    rw [keys]
    exact nodup
  have bareEntries : ∀ entry ∈ entries, IsBare entry.key ∧ IsBare entry.value := by
    intro entry member
    apply bare entry.field
    rw [listed, Multiset.mem_coe]
    exact List.mem_map_of_mem member
  rw [listed, Multiset.coe_card, List.length_map] at several
  rcases entries with _ | ⟨first, _ | ⟨second, rest⟩⟩
  · cases several
  · exact absurd several (Nat.not_succ_le_self 1)
  · have comma : ',' ∈ written (first :: second :: rest) := by
      simp [written]
    have equal : '=' ∈ written (first :: second :: rest) := by
      simp [written, first.equal_mem_text]
    rw [parse, free, if_neg Bool.false_ne_true, if_neg (not_not.mpr comma),
      if_neg (not_not.mpr equal), toMap]
    have same := entries_foldl_addEntry
      (map_splitCompress_written (List.cons_ne_nil _ _) bareEntries) distinct
      fun entry _ => Finmap.notMem_empty
    rw [show (∅ : Finmap fun _ : Text => Text).entries = 0 from rfl, Multiset.add_zero, ← listed]
      at same
    rw [Finmap.ext same]

/-- Two entries, with spaces around a comma and an equal sign. -/
theorem parse_written_two :
    written [⟨['b'], ['2'], 1, 0, 0, 1⟩, ⟨['a'], ['1'], 1, 1, 2, 0⟩] = " b=2 , a =  1".toList ∧
      parse noFloating ['g'] (written [⟨['b'], ['2'], 1, 0, 0, 1⟩, ⟨['a'], ['1'], 1, 1, 2, 0⟩]) =
        [.replace ['g'] (.map ((Finmap.singleton ['a'] ['1']).insert ['b'] ['2']))] := by
  constructor
  · decide
  · apply parse_written noFloating
    · decide
    · decide
    · decide
    · decide

end NestDaq.Parameter
