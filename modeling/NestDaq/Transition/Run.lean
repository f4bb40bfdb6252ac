import Mathlib.Data.List.Basic

/-!
# Runs of guarded transitions

A system is an option-valued step over a state and an action: `none` refuses
the action in that state. The module fixes what a run is, when every step of a
run meets a condition on the state before it, and when every state on the way
is good, and it contains the two induction rules that lead from one step to a
whole run.
-/

namespace NestDaq.Transition

universe u v

variable {σ : Type u} {α : Type v}

/-- A guarded transition. -/
abbrev Step (σ : Type u) (α : Type v) := σ → α → Option σ

/-- Perform a sequence of actions; a refused action ends the run. -/
def run (step : Step σ α) : σ → List α → Option σ
  | state, [] => some state
  | state, action :: rest => (step state action).bind fun next => run step next rest

/-- Every step of the run is taken in a state that meets `condition`. -/
def Meets (step : Step σ α) (condition : σ → α → Prop) : σ → List α → Prop
  | _, [] => True
  | state, action :: rest =>
      condition state action ∧
        ∀ next, step state action = some next → Meets step condition next rest

/-- Whether a run meets a condition is decided along the run. -/
instance decidableMeets (step : Step σ α) (condition : σ → α → Prop)
    [∀ state action, Decidable (condition state action)] (state : σ) :
    ∀ actions, Decidable (Meets step condition state actions)
  | [] => .isTrue True.intro
  | action :: rest =>
      have _ : Decidable
          (∀ next, step state action = some next → Meets step condition next rest) :=
        match step state action with
        | none => .isTrue fun _ refused => nomatch refused
        | some next =>
            have := decidableMeets step condition next rest
            decidable_of_iff (Meets step condition next rest)
              ⟨fun meets _ same => Option.some.inj same ▸ meets, fun meets => meets next rfl⟩
      inferInstanceAs (Decidable (_ ∧ _))

/-- Every state visited by the run is good. -/
def Always (step : Step σ α) (good : σ → Prop) : σ → List α → Prop
  | state, [] => good state
  | state, action :: rest =>
      good state ∧ ∀ next, step state action = some next → Always step good next rest

/-- Take the items in order until one of them throws; the flag tells whether none
did. -/
def attempt (step : Step σ α) : σ → List α → σ × Bool
  | state, [] => (state, true)
  | state, item :: rest =>
      match step state item with
      | none => (state, false)
      | some next => attempt step next rest

@[simp]
theorem run_nil (step : Step σ α) (state : σ) : run step state [] = some state :=
  rfl

theorem run_cons_eq_some_iff (step : Step σ α) (state last : σ) (action : α)
    (rest : List α) :
    run step state (action :: rest) = some last ↔
      ∃ next, step state action = some next ∧ run step next rest = some last := by
  simp only [run, Option.bind_eq_some_iff]

/-- Runs compose. -/
theorem run_append (step : Step σ α) (state : σ) (first second : List α) :
    run step state (first ++ second) =
      (run step state first).bind fun middle => run step middle second := by
  induction first generalizing state with
  | nil => rfl
  | cons action first ih =>
      simp only [List.cons_append, run, ih, Option.bind_assoc]

/-- A condition true of every action of a run, whatever the state, is met by the run. -/
theorem meets_of_forall_mem {step : Step σ α} {condition : σ → α → Prop} {actions : List α}
    (always : ∀ state, ∀ action ∈ actions, condition state action) (state : σ) :
    Meets step condition state actions := by
  induction actions generalizing state with
  | nil => trivial
  | cons action rest ih =>
      constructor
      · exact always state action List.mem_cons_self
      · intro next _
        exact ih (fun state other member => always state other (List.mem_cons_of_mem _ member)) next

/-- A condition true of every step is met by every run. -/
theorem meets_of_forall {step : Step σ α} {condition : σ → α → Prop}
    (always : ∀ state action, condition state action) (state : σ) (actions : List α) :
    Meets step condition state actions :=
  meets_of_forall_mem (fun state action _ => always state action) state

/-- Conditions that a run meets together. -/
theorem Meets.and {step : Step σ α} {first second : σ → α → Prop} {state : σ}
    {actions : List α} (meetsFirst : Meets step first state actions)
    (meetsSecond : Meets step second state actions) :
    Meets step (fun state action => first state action ∧ second state action) state actions := by
  induction actions generalizing state with
  | nil => trivial
  | cons action rest ih =>
      constructor
      · exact ⟨meetsFirst.1, meetsSecond.1⟩
      · intro next stepped
        exact ih (meetsFirst.2 next stepped) (meetsSecond.2 next stepped)

/-- Invariant rule: an invariant that holds at the start and is preserved by
every step meeting the condition holds at the end of every run that meets it. -/
theorem run_invariant {step : Step σ α} {condition : σ → α → Prop} {invariant : σ → Prop}
    (preserved : ∀ {state action next}, invariant state → condition state action →
      step state action = some next → invariant next)
    {state last : σ} {actions : List α} (initial : invariant state)
    (meets : Meets step condition state actions)
    (reached : run step state actions = some last) : invariant last := by
  induction actions generalizing state with
  | nil =>
      cases reached
      exact initial
  | cons action rest ih =>
      obtain ⟨next, stepped, ran⟩ := (run_cons_eq_some_iff _ _ _ _ _).mp reached
      exact ih (preserved initial meets.1 stepped) (meets.2 next stepped) ran

/-- A fold that may fail is a run over its items. -/
theorem foldlM_eq_run (step : Step σ α) (state : σ) (items : List α) :
    items.foldlM step state = run step state items := by
  induction items generalizing state with
  | nil => rfl
  | cons item items ih =>
      rw [List.foldlM_cons, run]
      exact Option.bind_congr fun next _ => ih next

/-- Without an exception, `attempt` is the fold. -/
theorem attempt_eq (step : Step σ α) (state : σ) (items : List α) :
    items.foldlM step state =
      if (attempt step state items).2 then some (attempt step state items).1 else none := by
  induction items generalizing state with
  | nil => rfl
  | cons item rest ih =>
      rw [List.foldlM_cons, attempt]
      cases step state item with
      | none => rfl
      | some next => exact ih next

/-- Two steps that take the same items from related states to related states throw
at the same item and leave related states. -/
theorem attempt_related {τ : Type u} {step : Step σ α} {other : Step τ α}
    {related : σ → τ → Prop}
    (kept : ∀ {first second item}, related first second →
      Option.Rel related (step first item) (other second item))
    {first : σ} {second : τ} (initial : related first second) (items : List α) :
    related (attempt step first items).1 (attempt other second items).1 ∧
      (attempt step first items).2 = (attempt other second items).2 := by
  induction items generalizing first second with
  | nil => exact ⟨initial, rfl⟩
  | cons item rest ih =>
      have stepped := @kept first second item initial
      simp only [attempt]
      cases left : step first item with
      | none =>
          cases right : other second item with
          | none => exact ⟨initial, rfl⟩
          | some next =>
              rw [left, right] at stepped
              cases stepped
      | some next =>
          cases right : other second item with
          | none =>
              rw [left, right] at stepped
              cases stepped
          | some otherNext =>
              rw [left, right] at stepped
              cases stepped with
              | some both => exact ih both

/-- Invariant rule for the state that is left, with or without an exception. -/
theorem attempt_invariant {step : Step σ α} {invariant : σ → Prop}
    (preserved : ∀ {state item next}, invariant state → step state item = some next →
      invariant next)
    {state : σ} (initial : invariant state) (items : List α) :
    invariant (attempt step state items).1 := by
  induction items generalizing state with
  | nil => exact initial
  | cons item rest ih =>
      rw [attempt]
      cases stepped : step state item with
      | none => exact initial
      | some next => exact ih (preserved initial stepped)

/-- Invariant rule for a fold that may fail. -/
theorem foldlM_invariant {step : Step σ α} {invariant : σ → Prop} {state last : σ}
    {items : List α}
    (preserved : ∀ {state item next}, item ∈ items → invariant state →
      step state item = some next → invariant next)
    (initial : invariant state) (folded : items.foldlM step state = some last) :
    invariant last := by
  rw [foldlM_eq_run] at folded
  have meets (state : σ) (rest : List α) (inside : ∀ item ∈ rest, item ∈ items) :
      Meets step (fun _ item => item ∈ items) state rest := by
    induction rest generalizing state with
    | nil => trivial
    | cons item rest ih =>
        exact ⟨inside item List.mem_cons_self, fun next _ =>
          ih next fun other member => inside other (List.mem_cons_of_mem _ member)⟩
  exact run_invariant (fun holds member stepped => preserved member holds stepped) initial
    (meets state items fun _ member => member) folded

/-- A fold of which no step fails under an invariant leads to a state with it. -/
theorem exists_foldlM {step : Step σ α} {invariant : σ → Prop} {state : σ} {items : List α}
    (steps : ∀ {state item}, item ∈ items → invariant state →
      ∃ next, step state item = some next ∧ invariant next)
    (initial : invariant state) :
    ∃ last, items.foldlM step state = some last ∧ invariant last := by
  induction items generalizing state with
  | nil => exact ⟨state, rfl, initial⟩
  | cons item rest ih =>
      rcases steps List.mem_cons_self initial with ⟨next, stepped, holds⟩
      rcases ih (fun member => steps (List.mem_cons_of_mem _ member)) holds with
        ⟨last, folded, holdsLast⟩
      apply Exists.intro last
      rw [List.foldlM_cons, stepped]
      exact ⟨folded, holdsLast⟩

/-- What one item of a fold establishes and the others keep holds at the end. -/
theorem foldlM_establishes {step : Step σ α} {invariant result : σ → Prop} {state last : σ}
    {items : List α} {item : α} (member : item ∈ items)
    (preserved : ∀ {state other next}, invariant state → step state other = some next →
      invariant next)
    (established : ∀ {state next}, invariant state → step state item = some next → result next)
    (kept : ∀ {state other next}, result state → step state other = some next → result next)
    (initial : invariant state) (folded : items.foldlM step state = some last) : result last := by
  obtain ⟨before, after, rfl⟩ := List.append_of_mem member
  rw [foldlM_eq_run, run_append, Option.bind_eq_some_iff] at folded
  obtain ⟨middle, first, second⟩ := folded
  obtain ⟨next, stepped, rest⟩ := (run_cons_eq_some_iff _ _ _ _ _).mp second
  rw [← foldlM_eq_run] at first rest
  have atItem : invariant middle :=
    foldlM_invariant (fun _ holds stepped => preserved holds stepped) initial first
  exact foldlM_invariant (fun _ holds stepped => kept holds stepped)
    (established atItem stepped) rest

/-- Invariant rule for all states on the way. -/
theorem always_of_invariant {step : Step σ α} {condition : σ → α → Prop}
    {invariant good : σ → Prop}
    (preserved : ∀ {state action next}, invariant state → condition state action →
      step state action = some next → invariant next)
    (sound : ∀ {state}, invariant state → good state)
    {state : σ} {actions : List α} (initial : invariant state)
    (meets : Meets step condition state actions) : Always step good state actions := by
  induction actions generalizing state with
  | nil => exact sound initial
  | cons action rest ih =>
      exact ⟨sound initial, fun next stepped =>
        ih (preserved initial meets.1 stepped) (meets.2 next stepped)⟩

theorem Always.head {step : Step σ α} {good : σ → Prop} {state : σ} {actions : List α}
    (always : Always step good state actions) : good state := by
  cases actions with
  | nil => exact always
  | cons action rest => exact always.1

/-- A condition that the good states show to have been met is met by every run
through good states. -/
theorem meets_of_always {step : Step σ α} {condition : σ → α → Prop} {good : σ → Prop}
    (needed : ∀ {state action next}, step state action = some next → good next →
      condition state action)
    {state last : σ} {actions : List α} (reached : run step state actions = some last)
    (always : Always step good state actions) : Meets step condition state actions := by
  induction actions generalizing state with
  | nil => trivial
  | cons action rest ih =>
      rcases (run_cons_eq_some_iff _ _ _ _ _).mp reached with ⟨next, stepped, ran⟩
      have later := always.2 next stepped
      constructor
      · exact needed stepped later.head
      · intro other steppedOther
        cases stepped.symm.trans steppedOther
        exact ih ran later

/-- Exactness rule: where, under an invariant, a step from a good state leads to a good
state exactly if it meets the condition, the runs through good states are those that
meet it. -/
theorem always_iff_meets {step : Step σ α} {condition : σ → α → Prop} {invariant good : σ → Prop}
    (preserved : ∀ {state action next}, invariant state → good state →
      step state action = some next → invariant next)
    (exact : ∀ {state action next}, invariant state → good state → step state action = some next →
      (good next ↔ condition state action))
    (refused : ∀ {state action}, step state action = none → condition state action)
    {state : σ} (initial : invariant state) (goodInitial : good state) (actions : List α) :
    Always step good state actions ↔ Meets step condition state actions := by
  induction actions generalizing state with
  | nil => exact iff_of_true goodInitial trivial
  | cons action rest ih =>
      cases stepped : step state action with
      | none =>
          constructor
          · intro _
            exact ⟨refused stepped, fun next other => nomatch stepped.symm.trans other⟩
          · intro _
            exact ⟨goodInitial, fun next other => nomatch stepped.symm.trans other⟩
      | some next =>
          have here := @exact state action next initial goodInitial stepped
          have later := @ih next (preserved initial goodInitial stepped)
          constructor
          · rintro ⟨_, always⟩
            have goodNext := (always next stepped).head
            refine ⟨here.mp goodNext, fun other steppedOther => ?_⟩
            cases stepped.symm.trans steppedOther
            exact (later goodNext).mp (always next stepped)
          · rintro ⟨meets, rest⟩
            refine ⟨goodInitial, fun other steppedOther => ?_⟩
            cases stepped.symm.trans steppedOther
            exact (later (here.mpr meets)).mpr (rest next stepped)

/-- A run meets its condition if it does so before each of its actions. -/
theorem meets_iff_forall_split (step : Step σ α) (condition : σ → α → Prop) (state : σ)
    (actions : List α) :
    Meets step condition state actions ↔
      ∀ before action after, actions = before ++ action :: after →
        ∀ current, run step state before = some current → condition current action := by
  induction actions generalizing state with
  | nil => exact iff_of_true trivial fun _ _ _ split => by simp at split
  | cons first rest ih =>
      constructor
      · rintro ⟨here, later⟩ before action after split current reached
        cases before with
        | nil =>
            cases reached
            rw [← (List.cons.inj split).1]
            exact here
        | cons head before =>
            rcases List.cons.inj split with ⟨rfl, tail⟩
            rcases (run_cons_eq_some_iff _ _ _ _ _).mp reached with ⟨next, stepped, ran⟩
            exact (ih next).mp (later next stepped) before action after tail current ran
      · intro holds
        refine ⟨holds [] first rest rfl state rfl, fun next stepped => (ih next).mpr ?_⟩
        intro before action after split current ran
        apply holds (first :: before) action after (by rw [split, List.cons_append])
        exact (run_cons_eq_some_iff _ _ _ _ _).mpr ⟨next, stepped, ran⟩

/-- The states visited are those reached by the prefixes of the run. -/
theorem always_iff_forall_reached (step : Step σ α) (good : σ → Prop) (state : σ)
    (actions : List α) :
    Always step good state actions ↔
      ∀ first, first <+: actions → ∀ last, run step state first = some last → good last := by
  induction actions generalizing state with
  | nil =>
      constructor
      · rintro holds first isPrefix last reached
        rw [List.prefix_nil.mp isPrefix] at reached
        cases reached
        exact holds
      · intro holds
        exact holds [] (List.prefix_rfl) state rfl
  | cons action rest ih =>
      constructor
      · rintro ⟨here, later⟩ first isPrefix last reached
        cases first with
        | nil =>
            cases reached
            exact here
        | cons head tail =>
            obtain ⟨rfl, tailPrefix⟩ := List.cons_prefix_cons.mp isPrefix
            obtain ⟨next, stepped, ran⟩ := (run_cons_eq_some_iff _ _ _ _ _).mp reached
            exact (ih next).mp (later next stepped) tail tailPrefix last ran
      · intro holds
        refine ⟨holds [] List.nil_prefix state rfl, fun next stepped => ?_⟩
        refine (ih next).mpr fun first isPrefix last reached => ?_
        exact holds (action :: first) (List.cons_prefix_cons.mpr ⟨rfl, isPrefix⟩) last
          ((run_cons_eq_some_iff _ _ _ _ _).mpr ⟨next, stepped, reached⟩)

end NestDaq.Transition
