import NestDaq.Transition.Run
import Mathlib.Data.DFinsupp.WellFounded
import Mathlib.Logic.Relation

/-!
# Parties with a shared state

A finite family of parties, each with a state of its own, acts on one shared
state in any order. An invariant of such a network is a property of the shared
state and one of each party that survives its own steps and those of the others.
A network in which a party that is held waits, without a cycle, for another one
has a party that is free, and free parties together bring everyone to the end.
-/

namespace NestDaq.Transition

universe u v w x y

/-- The shared state and the states of the parties. -/
structure Network (ι : Type u) (σ : Type v) (μ : Type w) where
  shared : σ
  party : ι → μ

/-- What one party may do with the shared state and its own. -/
abbrev LocalStep (σ : Type v) (μ : Type w) (α : Type x) := Step (σ × μ) α

namespace Network

variable {ι : Type u} {σ : Type v} {μ : Type w} {α : Type x} [DecidableEq ι]

/-- One party has acted. -/
def acted (network : Network ι σ μ) (i : ι) (result : σ × μ) : Network ι σ μ :=
  ⟨result.1, Function.update network.party i result.2⟩

/-- The named party acts. -/
def step (partyStep : LocalStep σ μ α) : Step (Network ι σ μ) (ι × α)
  | network, (i, action) =>
      (partyStep (network.shared, network.party i) action).map (network.acted i)

@[simp]
theorem acted_shared (network : Network ι σ μ) (i : ι) (result : σ × μ) :
    (network.acted i result).shared = result.1 :=
  rfl

@[simp]
theorem acted_party_self (network : Network ι σ μ) (i : ι) (result : σ × μ) :
    (network.acted i result).party i = result.2 := by
  simp only [acted, Function.update_self]

theorem acted_party_of_ne (network : Network ι σ μ) {i j : ι} (differs : j ≠ i)
    (result : σ × μ) : (network.acted i result).party j = network.party j := by
  simp only [acted, Function.update_of_ne differs]

/-- Invariant rule: what holds of every party after its own steps and after those of
the others holds of all parties at the end of a run. -/
theorem run_invariant {partyStep : LocalStep σ μ α} {invariant : ι → σ → μ → Prop}
    (own : ∀ {i shared party action result}, invariant i shared party →
      partyStep (shared, party) action = some result → invariant i result.1 result.2)
    (others : ∀ {i j shared party other action result}, j ≠ i → invariant i shared party →
      invariant j shared other → partyStep (shared, party) action = some result →
      invariant j result.1 other)
    {network last : Network ι σ μ} {actions : List (ι × α)}
    (initial : ∀ i, invariant i network.shared (network.party i))
    (reached : run (step partyStep) network actions = some last) (i : ι) :
    invariant i last.shared (last.party i) := by
  apply @Transition.run_invariant _ _ _ (fun _ _ => True)
    (fun network : Network ι σ μ => ∀ i, invariant i network.shared (network.party i))
    _ _ _ _ initial (meets_of_forall (fun _ _ => trivial) _ _) reached
  rintro network ⟨i, action⟩ next holds - stepped j
  rcases Option.map_eq_some_iff.mp stepped with ⟨result, acts, rfl⟩
  by_cases same : j = i
  · subst same
    rw [acted_party_self]
    exact own (holds j) acts
  · rw [acted_party_of_ne _ same]
    exact others same (holds i) (holds j) acts

/-- A run of one party in the network is its run on the shared state. -/
theorem run_solo (partyStep : LocalStep σ μ α) (network : Network ι σ μ) (i : ι)
    {actions : List α} {result : σ × μ}
    (reached : run partyStep (network.shared, network.party i) actions = some result) :
    run (step partyStep) network (actions.map fun action => (i, action)) =
      some (network.acted i result) := by
  induction actions generalizing network with
  | nil =>
      cases reached
      rw [List.map_nil, run_nil, acted, Function.update_eq_self]
  | cons action rest ih =>
      rcases (run_cons_eq_some_iff _ _ _ _ _).mp reached with ⟨middle, acts, ran⟩
      rw [List.map_cons, run_cons_eq_some_iff]
      apply Exists.intro (network.acted i middle)
      constructor
      · rw [step, acts, Option.map_some]
      · rw [ih (network.acted i middle)]
        · rw [acted, acted, acted, Function.update_idem]
        · rw [acted_shared, acted_party_self]
          exact ran

/-- The party can come closer to its end by itself. -/
def Advances {ω : Type y} [LT ω] (partyStep : LocalStep σ μ α) (rest : μ → ω) (shared : σ)
    (party : μ) : Prop :=
  ∃ actions result, run partyStep (shared, party) actions = some result ∧ rest result.2 < rest party

omit [DecidableEq ι] in
/-- If nobody waits for itself around a cycle, somebody who is not at the end waits for
nobody of that kind. -/
theorem exists_free [Finite ι] {waits : ι → ι → Prop}
    (acyclic : ∀ i, ¬ Relation.TransGen waits i i) {unfinished held : ι → Prop}
    (blocked : ∀ {i}, unfinished i → held i →
      ∃ j, unfinished j ∧ (held j → waits i j))
    {i : ι} (remains : unfinished i) : ∃ j, unfinished j ∧ ¬ held j := by
  by_contra none
  have all {j : ι} (unfinishedJ : unfinished j) : held j := by
    by_contra free
    exact none ⟨j, unfinishedJ, free⟩
  have trans : IsTrans ι (Function.swap (Relation.TransGen waits)) :=
    ⟨fun _ _ _ first second => second.trans first⟩
  have irrefl : Std.Irrefl (Function.swap (Relation.TransGen waits)) := ⟨acyclic⟩
  have wellFounded := Finite.wellFounded_of_trans_of_irrefl
    (Function.swap (Relation.TransGen waits))
  rcases wellFounded.has_min { j | unfinished j } ⟨i, remains⟩ with
    ⟨least, unfinishedLeast, minimal⟩
  rcases blocked unfinishedLeast (all unfinishedLeast) with ⟨j, unfinishedJ, waitsJ⟩
  exact minimal j unfinishedJ (Relation.TransGen.single (waitsJ (all unfinishedJ)))

/-- When in every good state somebody who is not at the end can advance, every good
state leads to one where all are at the end. -/
theorem exists_completion [Finite ι] {ω : Type y} [Preorder ω] [WellFoundedLT ω]
    {partyStep : LocalStep σ μ α} {rest : μ → ω} {good : Network ι σ μ → Prop}
    {unfinished : μ → Prop}
    (kept : ∀ {network last : Network ι σ μ} {actions}, good network →
      run (step partyStep) network actions = some last → good last)
    (advances : ∀ {network : Network ι σ μ} {i}, good network → unfinished (network.party i) →
      ∃ j, Advances partyStep rest network.shared (network.party j))
    (network : Network ι σ μ) (holds : good network) :
    ∃ actions last, run (step partyStep) network actions = some last ∧ good last ∧
      ∀ i, ¬ unfinished (last.party i) := by
  induction equal : (fun i => rest (network.party i)) using
    (wellFounded_lt : WellFounded ((· < ·) : (ι → ω) → (ι → ω) → Prop)).induction
    generalizing network with
  | _ measure ih =>
  by_cases finished : ∀ i, ¬ unfinished (network.party i)
  · exact ⟨[], network, rfl, holds, finished⟩
  · rcases not_forall_not.mp finished with ⟨i, remains⟩
    rcases advances holds remains with ⟨j, actions, result, ran, less⟩
    have solo := run_solo partyStep network j ran
    have smaller : (fun i => rest ((network.acted j result).party i)) < measure := by
      rw [← equal]
      apply Pi.lt_def.mpr
      constructor
      · intro k
        by_cases same : k = j
        · subst same
          simp only [acted_party_self]
          exact less.le
        · simp only [acted_party_of_ne _ same]
          exact le_rfl
      · apply Exists.intro j
        simp only [acted_party_self]
        exact less
    rcases ih _ smaller (network.acted j result) (kept holds solo) rfl with
      ⟨later, last, ranLater, goodLast, allFinished⟩
    apply Exists.intro (actions.map (fun action => (j, action)) ++ later)
    apply Exists.intro last
    constructor
    · rw [run_append, solo]
      exact ranLater
    · exact ⟨goodLast, allFinished⟩

end Network

end NestDaq.Transition
