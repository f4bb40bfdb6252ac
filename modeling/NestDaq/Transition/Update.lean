import NestDaq.Transition.Run
import Mathlib.Data.List.AList

/-!
# Updates of a keyed store

An update sets the value of one key, depending on the value the key has, or it
throws. A sequence of updates falls apart by key: it goes through exactly if the
updates of each key do on their own, and what a key has in the end is what its
own updates make of the value it had.
-/

namespace NestDaq.Transition

universe u v w

variable {K : Type u} {V : Type v} {α : Type w} [DecidableEq K] (key : α → K)
  (effect : α → Option V → Option V)

/-- Apply one update to the store. -/
def update : Step (AList fun _ : K => V) α :=
  fun store item => (effect item (store.lookup (key item))).map (store.insert (key item))

/-- Apply one update to the value of its key. -/
def follow : Step (Option V) α :=
  fun value item => (effect item value).map some

/-- The updates of one key. -/
def updatesOf (name : K) (items : List α) : List α :=
  items.filter (key · = name)

@[simp]
theorem updatesOf_append (name : K) (first second : List α) :
    updatesOf key name (first ++ second) = updatesOf key name first ++ updatesOf key name second :=
  List.filter_append _ _

theorem updatesOf_cons_of_eq {name : K} {item : α} (same : key item = name) (items : List α) :
    updatesOf key name (item :: items) = item :: updatesOf key name items :=
  List.filter_cons_of_pos (by simpa using same)

theorem updatesOf_cons_of_ne {name : K} {item : α} (other : key item ≠ name) (items : List α) :
    updatesOf key name (item :: items) = updatesOf key name items :=
  List.filter_cons_of_neg (by simpa using other)

theorem mem_updatesOf {name : K} {item : α} {items : List α} :
    item ∈ updatesOf key name items ↔ item ∈ items ∧ key item = name := by
  simp [updatesOf]

variable {key effect} {store last : AList fun _ : K => V} {items : List α}

theorem update_eq_some_iff {item : α} :
    update key effect store item = some last ↔
      ∃ value, effect item (store.lookup (key item)) = some value ∧
        last = store.insert (key item) value := by
  simp only [update, Option.map_eq_some_iff]
  constructor
  · rintro ⟨value, affected, rfl⟩
    exact ⟨value, affected, rfl⟩
  · rintro ⟨value, affected, rfl⟩
    exact ⟨value, affected, rfl⟩

/-- What a key has in the end is what its own updates lead to. -/
theorem run_follow_of_run_update (ran : run (update key effect) store items = some last)
    (name : K) :
    run (follow effect) (store.lookup name) (updatesOf key name items) =
      some (last.lookup name) := by
  induction items generalizing store with
  | nil =>
      cases ran
      rfl
  | cons item items ih =>
      obtain ⟨next, stepped, rest⟩ := (run_cons_eq_some_iff _ _ _ _ _).mp ran
      obtain ⟨value, affected, rfl⟩ := update_eq_some_iff.mp stepped
      have after := ih rest
      by_cases same : key item = name
      · subst same
        rw [AList.lookup_insert] at after
        rw [updatesOf_cons_of_eq _ rfl, run_cons_eq_some_iff]
        exact ⟨some value, by simp [follow, affected], after⟩
      · rw [AList.lookup_insert_ne (Ne.symm same)] at after
        rw [updatesOf_cons_of_ne _ same]
        exact after

/-- A sequence of updates goes through if the updates of each key do. -/
theorem exists_run_update
    (each : ∀ name, (run (follow effect) (store.lookup name) (updatesOf key name items)).isSome) :
    ∃ last, run (update key effect) store items = some last := by
  induction items generalizing store with
  | nil => exact ⟨store, rfl⟩
  | cons item items ih =>
      obtain ⟨value, affected⟩ : ∃ value, effect item (store.lookup (key item)) = some value := by
        obtain ⟨final, ran⟩ := Option.isSome_iff_exists.mp (each (key item))
        rw [updatesOf_cons_of_eq _ rfl, run_cons_eq_some_iff] at ran
        obtain ⟨next, stepped, -⟩ := ran
        obtain ⟨value, affected, -⟩ := Option.map_eq_some_iff.mp stepped
        exact ⟨value, affected⟩
      obtain ⟨last, rest⟩ : ∃ last, run (update key effect) (store.insert (key item) value) items =
          some last := by
        apply ih
        intro name
        have own := each name
        by_cases same : key item = name
        · subst same
          rw [updatesOf_cons_of_eq _ rfl] at own
          rw [AList.lookup_insert]
          simpa [run, follow, affected] using own
        · rw [updatesOf_cons_of_ne _ same] at own
          rw [AList.lookup_insert_ne (Ne.symm same)]
          exact own
      refine ⟨last, (run_cons_eq_some_iff _ _ _ _ _).mpr ⟨_, ?_, rest⟩⟩
      exact update_eq_some_iff.mpr ⟨value, affected, rfl⟩

/-- A sequence of updates goes through exactly if the updates of each key do. -/
theorem attempt_update_iff :
    (attempt (update key effect) store items).2 = true ↔
      ∀ name, (run (follow effect) (store.lookup name) (updatesOf key name items)).isSome := by
  have folded := attempt_eq (update key effect) store items
  rw [foldlM_eq_run] at folded
  constructor
  · intro completed name
    rw [if_pos completed] at folded
    rw [run_follow_of_run_update folded name]
    rfl
  · intro each
    obtain ⟨last, ran⟩ := exists_run_update each
    by_contra thrown
    rw [if_neg thrown, ran] at folded
    cases folded

/-- The value that a sequence of updates leaves at a key. -/
theorem lookup_attempt_update (completed : (attempt (update key effect) store items).2 = true)
    (name : K) :
    run (follow effect) (store.lookup name) (updatesOf key name items) =
      some ((attempt (update key effect) store items).1.lookup name) := by
  have folded := attempt_eq (update key effect) store items
  rw [foldlM_eq_run, if_pos completed] at folded
  exact run_follow_of_run_update folded name

end NestDaq.Transition
