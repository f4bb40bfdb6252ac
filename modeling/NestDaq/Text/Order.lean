import NestDaq.Text.Core
import Mathlib.Data.List.AList
import Mathlib.Data.List.Sort
import Mathlib.Order.Interval.Finset.Nat

/-!
# Sorted duplicate-free lists and ranks

Sorting followed by the removal of adjacent duplicates, as the code applies it
to vectors of keys and as `std::set` orders its elements. A strictly sorted
list is determined by its members, and the rank of an element in it is compared
across two lists through an order isomorphism of their members.
-/

namespace NestDaq

universe u v

variable {α : Type u} [LinearOrder α]

/-- `std::unique`: of adjacent equal elements only one is kept. -/
def unique : List α → List α
  | [] => []
  | [last] => [last]
  | first :: second :: rest =>
      if first = second then unique (second :: rest) else first :: unique (second :: rest)

/-- `std::sort` followed by `std::unique`, also the elements of a `std::set`. -/
def sortUnique (items : List α) : List α :=
  unique (items.insertionSort (· ≤ ·))

@[simp]
theorem mem_unique {items : List α} {item : α} : item ∈ unique items ↔ item ∈ items := by
  induction items using unique.induct with
  | case1 => simp [unique]
  | case2 last => simp [unique]
  | case3 second rest ih => simp [unique, ih]
  | case4 first second rest differs ih => simp [unique, differs, ih]

theorem pairwise_lt_unique {items : List α} (sorted : items.Pairwise (· ≤ ·)) :
    (unique items).Pairwise (· < ·) := by
  induction items using unique.induct with
  | case1 => simp [unique]
  | case2 last => simp [unique]
  | case3 second rest ih =>
      rw [unique, if_pos rfl]
      exact ih sorted.of_cons
  | case4 first second rest differs ih =>
      rw [unique, if_neg differs, List.pairwise_cons]
      refine ⟨fun item member => ?_, ih sorted.of_cons⟩
      have firstLe := (List.pairwise_cons.mp sorted).1
      have firstLt : first < second :=
        lt_of_le_of_ne (firstLe second List.mem_cons_self) differs
      rcases List.mem_cons.mp (mem_unique.mp member) with rfl | inRest
      · exact firstLt
      · exact firstLt.trans_le ((List.pairwise_cons.mp sorted.of_cons).1 item inRest)

/-- The result holds the same elements, each once, in increasing order. -/
@[simp]
theorem mem_sortUnique {items : List α} {item : α} : item ∈ sortUnique items ↔ item ∈ items := by
  simp [sortUnique]

theorem pairwise_lt_sortUnique (items : List α) : (sortUnique items).Pairwise (· < ·) :=
  pairwise_lt_unique (List.pairwise_insertionSort (· ≤ ·) items)

theorem nodup_sortUnique (items : List α) : (sortUnique items).Nodup :=
  (pairwise_lt_sortUnique items).imp ne_of_lt

/-- Removing duplicates never lengthens a list. -/
theorem length_sortUnique_le (items : List α) : (sortUnique items).length ≤ items.length :=
  ((nodup_sortUnique items).subperm fun _ member => mem_sortUnique.mp member).length_le

/-- Without duplicates nothing is removed. -/
theorem length_sortUnique_of_nodup {items : List α} (nodup : items.Nodup) :
    (sortUnique items).length = items.length :=
  le_antisymm (length_sortUnique_le items)
    (nodup.subperm fun _ member => mem_sortUnique.mpr member).length_le

/-- Strictly sorted lists with the same members are equal. -/
theorem eq_of_pairwise_lt {first second : List α} (firstSorted : first.Pairwise (· < ·))
    (secondSorted : second.Pairwise (· < ·)) (same : ∀ item, item ∈ first ↔ item ∈ second) :
    first = second := by
  have firstNodup : first.Nodup := firstSorted.imp ne_of_lt
  have secondNodup : second.Nodup := secondSorted.imp ne_of_lt
  have perm : first.Perm second := (List.perm_ext_iff_of_nodup firstNodup secondNodup).mpr same
  exact perm.eq_of_pairwise (fun _ _ _ _ below above => absurd below above.asymm)
    firstSorted secondSorted

theorem sortUnique_eq_iff {items sorted : List α} (isSorted : sorted.Pairwise (· < ·)) :
    sortUnique items = sorted ↔ ∀ item, item ∈ items ↔ item ∈ sorted := by
  constructor
  · rintro rfl item
    exact mem_sortUnique.symm
  · intro same
    exact eq_of_pairwise_lt (pairwise_lt_sortUnique items) isSorted fun item => by
      rw [mem_sortUnique, same]

/-- Sorted duplicate-free lists of the same elements are one. -/
theorem sortUnique_congr {items others : List α} (same : ∀ item, item ∈ items ↔ item ∈ others) :
    sortUnique items = sortUnique others := by
  rw [sortUnique_eq_iff (pairwise_lt_sortUnique others)]
  intro item
  rw [same, mem_sortUnique]

section Map

variable {β : Type v} [DecidableEq α]

/-- The entries of a `std::map`, in the order of their keys. -/
def ordered (map : AList fun _ : α => β) : List (α × β) :=
  (sortUnique map.keys).filterMap fun key => (map.lookup key).map (key, ·)

theorem mem_ordered {map : AList fun _ : α => β} {key : α} {value : β} :
    (key, value) ∈ ordered map ↔ map.lookup key = some value := by
  simp only [ordered, List.mem_filterMap, mem_sortUnique, Option.map_eq_some_iff, Prod.mk.injEq]
  constructor
  · rintro ⟨other, -, value', found, rfl, rfl⟩
    exact found
  · intro found
    exact ⟨key, AList.mem_keys.mp (AList.lookup_isSome.mp (by rw [found]; rfl)), value, found,
      rfl, rfl⟩

theorem mem_keys_ordered {map : AList fun _ : α => β} {key : α} :
    key ∈ (ordered map).map Prod.fst ↔ key ∈ map := by
  rw [List.mem_map, ← AList.lookup_isSome, Option.isSome_iff_exists]
  constructor
  · rintro ⟨⟨key, value⟩, member, rfl⟩
    exact ⟨value, mem_ordered.mp member⟩
  · rintro ⟨value, found⟩
    exact ⟨(key, value), mem_ordered.mpr found, rfl⟩

omit [LinearOrder α] [DecidableEq α] in
/-- Maps of one size have the same keys when one has all keys of the other. -/
theorem length_entries_eq_and_forall_mem_iff {first second : AList fun _ : α => β} :
    first.entries.length = second.entries.length ∧ (∀ key ∈ second, key ∈ first) ↔
      ∀ key, key ∈ first ↔ key ∈ second := by
  have sizes : ∀ map : AList fun _ : α => β, map.entries.length = map.keys.length := by
    intro map
    exact (List.length_map _).symm
  rw [sizes, sizes]
  simp only [AList.mem_keys]
  constructor
  · rintro ⟨length, included⟩ key
    have contained : second.keys.Subperm first.keys := second.keys_nodup.subperm included
    exact (contained.perm_of_length_le length.le).mem_iff.symm
  · intro same
    have perm := (List.perm_ext_iff_of_nodup first.keys_nodup second.keys_nodup).mpr same
    exact ⟨perm.length_eq, fun key member => (same key).mpr member⟩

theorem map_fst_ordered (map : AList fun _ : α => β) :
    (ordered map).map Prod.fst = sortUnique map.keys := by
  rw [ordered, List.map_filterMap]
  calc
    _ = (sortUnique map.keys).filterMap some := by
      apply List.filterMap_congr
      intro key member
      obtain ⟨value, found⟩ := Option.isSome_iff_exists.mp
        (AList.lookup_isSome.mpr (AList.mem_keys.mpr (mem_sortUnique.mp member)))
      simp [found]
    _ = sortUnique map.keys := List.filterMap_some

theorem pairwise_lt_keys_ordered (map : AList fun _ : α => β) :
    ((ordered map).map Prod.fst).Pairwise (· < ·) := by
  rw [map_fst_ordered]
  exact pairwise_lt_sortUnique _

theorem nodup_keys_ordered (map : AList fun _ : α => β) :
    ((ordered map).map Prod.fst).Nodup := by
  rw [map_fst_ordered]
  exact nodup_sortUnique _

/-- An entry that alone has a property is what is left of the map. -/
theorem filter_ordered_eq_singleton {map : AList fun _ : α => β} {key : α} {value : β}
    {property : α × β → Bool} (found : map.lookup key = some value)
    (holds : property (key, value))
    (only : ∀ other value', map.lookup other = some value' → property (other, value') →
      other = key) :
    (ordered map).filter property = [(key, value)] := by
  have nodup : ((ordered map).filter property).Nodup :=
    (List.Nodup.of_map Prod.fst (nodup_keys_ordered map)).filter _
  apply List.perm_singleton.mp
  apply (List.perm_ext_iff_of_nodup nodup (List.nodup_singleton _)).mpr
  rintro ⟨other, value'⟩
  rw [List.mem_filter, mem_ordered, List.mem_singleton, Prod.mk.injEq]
  constructor
  · rintro ⟨found', holds'⟩
    obtain rfl := only other value' found' holds'
    rw [found, Option.some.injEq] at found'
    exact ⟨rfl, found'.symm⟩
  · rintro ⟨rfl, rfl⟩
    exact ⟨found, holds⟩

end Map

namespace Text

theorem append_lt_append_left_iff (front first second : Text) :
    front ++ first < front ++ second ↔ first < second := by
  induction front with
  | nil => rfl
  | cons char front ih => simp [ih]

/-- Two different parts in front of a separator decide the order of the texts, whatever
follows the separator. -/
theorem lt_separator_iff {separator : Char} {first second : Text} (firstFree : separator ∉ first)
    (secondFree : separator ∉ second) (differ : first ≠ second) (rest rest' other other' : Text) :
    first ++ separator :: rest < second ++ separator :: rest' ↔
      first ++ separator :: other < second ++ separator :: other' := by
  induction first generalizing second with
  | nil =>
      cases second with
      | nil => exact absurd rfl differ
      | cons char second =>
          have apart : separator ≠ char := fun equal => secondFree (equal ▸ List.mem_cons_self)
          simp [List.cons_lt_cons_iff, apart]
  | cons char first ih =>
      cases second with
      | nil =>
          have apart : char ≠ separator := fun equal => firstFree (equal ▸ List.mem_cons_self)
          simp [List.cons_lt_cons_iff, apart]
      | cons char' second =>
          simp only [List.cons_append, List.cons_lt_cons_iff]
          by_cases same : char = char'
          · subst same
            simp only [lt_irrefl, true_and, false_or]
            exact ih (fun member => firstFree (List.mem_cons_of_mem _ member))
              (fun member => secondFree (List.mem_cons_of_mem _ member)) fun equal =>
                differ (equal ▸ rfl)
          · simp [same]
end Text

section Ranks

variable {β : Type v}

omit [LinearOrder α] in
/-- Ranks in one list select every element of another list of the same length once. -/
theorem bijOn_rank [BEq β] [LawfulBEq β] {items : List β} {others : List α} (nodup : items.Nodup)
    (nodupOthers : others.Nodup) (same : items.length = others.length) (default : α) :
    Set.BijOn (fun item => (others[items.idxOf item]?).getD default)
      {item | item ∈ items} {other | other ∈ others} := by
  have selected {item : β} (member : item ∈ items) :
      ∃ below : items.idxOf item < others.length,
        (others[items.idxOf item]?).getD default = others[items.idxOf item] := by
    have below := same ▸ List.idxOf_lt_length_iff.mpr member
    exact ⟨below, by rw [List.getElem?_eq_getElem below, Option.getD_some]⟩
  refine ⟨fun item member => ?_, fun first firstMem second secondMem equal => ?_,
    fun other member => ?_⟩
  · obtain ⟨below, select⟩ := selected member
    change (others[items.idxOf item]?).getD default ∈ others
    rw [select]
    exact List.getElem_mem below
  · obtain ⟨below, select⟩ := selected firstMem
    obtain ⟨below', select'⟩ := selected secondMem
    have ranks := (nodupOthers.getElem_inj_iff).mp (select.symm.trans (equal.trans select'))
    exact (List.idxOf_inj firstMem).mp ranks
  · obtain ⟨index, below, rfl⟩ := List.getElem_of_mem (show other ∈ others from member)
    have belowItems : index < items.length := same ▸ below
    refine ⟨items[index], List.getElem_mem belowItems, ?_⟩
    simp only [nodup.idxOf_getElem, List.getElem?_eq_getElem below, Option.getD_some]

/-- In two sorted lists of the images of the same elements, where the images are in
the same order, the images of an element have the same rank. -/
theorem getElem?_idxOf_of_lt_iff [BEq α] [LawfulBEq α] {elements : Set β} {first second : β → α}
    {items others : List α}
    (sorted : items.Pairwise (· < ·)) (sortedOthers : others.Pairwise (· < ·))
    (members : ∀ item, item ∈ items ↔ ∃ element ∈ elements, first element = item)
    (membersOthers : ∀ item, item ∈ others ↔ ∃ element ∈ elements, second element = item)
    (order : ∀ here ∈ elements, ∀ there ∈ elements,
      first here < first there ↔ second here < second there)
    {element : β} (member : element ∈ elements) :
    others[items.idxOf (first element)]? = some (second element) := by
  obtain ⟨sources, included, rfl⟩ : ∃ sources : List β,
      (∀ source ∈ sources, source ∈ elements) ∧ sources.map first = items := by
    have preimages : ∀ item ∈ items, ∃ element ∈ elements, first element = item :=
      fun item inItems => (members item).mp inItems
    clear sorted members
    induction items with
    | nil => exact ⟨[], by simp, rfl⟩
    | cons item items ih =>
        obtain ⟨source, inElements, rfl⟩ := preimages item List.mem_cons_self
        obtain ⟨sources, included, rfl⟩ :=
          ih fun item inItems => preimages item (List.mem_cons_of_mem _ inItems)
        exact ⟨source :: sources, by simpa using ⟨inElements, included⟩, rfl⟩
  have sameImage {here there : β} (hereMem : here ∈ elements) (thereMem : there ∈ elements)
      (equal : first here = first there) : second here = second there := by
    apply le_antisymm <;> apply le_of_not_gt
    · exact fun below => absurd ((order there thereMem here hereMem).mpr below)
        (equal ▸ lt_irrefl _)
    · exact fun below => absurd ((order here hereMem there thereMem).mpr below)
        (equal ▸ lt_irrefl _)
  have source {element : β} (member : element ∈ elements) :
      ∃ index, ∃ below : index < sources.length, first sources[index] = first element ∧
        second sources[index] = second element := by
    obtain ⟨source, inSources, equal⟩ :=
      List.mem_map.mp ((members (first element)).mpr ⟨element, member, rfl⟩)
    obtain ⟨index, below, rfl⟩ := List.getElem_of_mem inSources
    exact ⟨index, below, equal, sameImage (included _ inSources) member equal⟩
  have others_eq : others = sources.map second := by
    refine eq_of_pairwise_lt sortedOthers ?_ fun item => ?_
    · rw [List.pairwise_map] at sorted ⊢
      exact sorted.imp_of_mem fun firstMem secondMem below =>
        (order _ (included _ firstMem) _ (included _ secondMem)).mp below
    · rw [membersOthers, List.mem_map]
      constructor
      · rintro ⟨element, member, rfl⟩
        obtain ⟨index, below, -, equal⟩ := source member
        exact ⟨sources[index], List.getElem_mem below, equal⟩
      · rintro ⟨source, inSources, rfl⟩
        exact ⟨source, included source inSources, rfl⟩
  obtain ⟨index, below, equalFirst, equalSecond⟩ := source member
  have rank : (sources.map first).idxOf (first element) = index := by
    have nodup : (sources.map first).Nodup := sorted.imp ne_of_lt
    have here := nodup.idxOf_getElem index (by simpa using below)
    rwa [List.getElem_map, equalFirst] at here
  rw [rank, others_eq, List.getElem?_map, List.getElem?_eq_getElem below, Option.map_some,
    equalSecond]

end Ranks

end NestDaq
