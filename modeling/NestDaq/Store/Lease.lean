import Mathlib.Logic.Function.Basic
import Mathlib.Data.List.Basic
import Mathlib.Data.Option.Basic

/-!
# Stores with deadlines

A store in which every value may have a deadline after which it is not there any more. A
value can be put for one whole term, changed while it keeps its deadline, renewed for
another term, and erased. What lapses is not brought back by a renewal, and a change of
what has lapsed makes a new value without a deadline.
-/

namespace NestDaq.Expiring

universe u v

variable {K : Type u} {V : Type v}

/-- A value with the time from which on it is not there any more. -/
structure Lease (V : Type v) where
  value : V
  deadline : Option Nat

/-- A store with deadlines. -/
abbrev Leases (K : Type u) (V : Type v) := K → Option (Lease V)

/-- The deadline is not reached. -/
def Lease.holds (lease : Lease V) (now : Nat) : Bool :=
  match lease.deadline with
  | none => true
  | some deadline => now < deadline

/-- What is there of a key at a time. -/
def live (leases : Leases K V) (now : Nat) (key : K) : Option (Lease V) :=
  (leases key).filter (·.holds now)

/-- The value that is seen at a time. -/
def seen (leases : Leases K V) (now : Nat) (key : K) : Option V :=
  (live leases now key).map (·.value)

/-- A command of a client. -/
inductive Op (K : Type u) (V : Type v) where
  | put (key : K) (value : V)
  | change (key : K) (f : Option V → V)
  | renew (key : K)
  | erase (key : K)

namespace Op

/-- The key that a command addresses. -/
def key : Op K V → K
  | put key _ | change key _ | renew key | erase key => key

/-- What a command makes of what is there of its key. -/
def result (term now : Nat) (found : Option (Lease V)) : Op K V → Option (Lease V)
  | put _ value => some ⟨value, some (now + term)⟩
  | change _ f => some ⟨f (found.map (·.value)), found.bind (·.deadline)⟩
  | renew _ => found.map fun lease => { lease with deadline := some (now + term) }
  | erase _ => none

/-- A command that gives its key a deadline one term ahead. -/
def Extends : Op K V → Prop
  | put _ _ | renew _ => True
  | change _ _ | erase _ => False

/-- A command that makes a value where there is none. -/
def Creates : Op K V → Prop
  | put _ _ | change _ _ => True
  | renew _ | erase _ => False

end Op

section

variable [DecidableEq K]

/-- One command at a time. -/
def perform (term now : Nat) (leases : Leases K V) (op : Op K V) : Leases K V :=
  Function.update leases op.key (op.result term now (live leases now op.key))

/-- Several commands at one time. -/
def performAll (term now : Nat) (leases : Leases K V) (ops : List (Op K V)) : Leases K V :=
  ops.foldl (perform term now) leases

end

/-! ## Deadlines -/

variable {leases : Leases K V} {now later term : Nat} {key other : K}

@[simp]
theorem Lease.holds_none (value : V) (now : Nat) : (⟨value, none⟩ : Lease V).holds now = true :=
  rfl

@[simp]
theorem Lease.holds_some (value : V) (deadline now : Nat) :
    (⟨value, some deadline⟩ : Lease V).holds now = decide (now < deadline) :=
  rfl

theorem live_eq_some_iff {lease : Lease V} :
    live leases now key = some lease ↔ leases key = some lease ∧ lease.holds now = true := by
  rw [live, Option.filter_eq_some_iff]

/-- A deadline that holds has held before. -/
theorem Lease.holds_of_le {lease : Lease V} (before : now ≤ later)
    (holds : lease.holds later = true) : lease.holds now = true := by
  rw [Lease.holds] at holds ⊢
  cases found : lease.deadline with
  | none => rfl
  | some deadline =>
      rw [found] at holds
      simp only [decide_eq_true_eq] at holds ⊢
      exact Nat.lt_of_le_of_lt before holds

/-- What is not there does not come back by itself. -/
theorem live_eq_none_of_le (before : now ≤ later) (lapsed : live leases now key = none) :
    live leases later key = none := by
  rw [live, Option.filter_eq_none_iff] at lapsed ⊢
  intro lease found holds
  exact lapsed lease found (Lease.holds_of_le before holds)

theorem seen_eq_none_iff : seen leases now key = none ↔ live leases now key = none := by
  rw [seen, Option.map_eq_none_iff]

/-- A value stays as it is until it is gone. -/
theorem seen_of_le (before : now ≤ later) :
    seen leases later key = none ∨ seen leases later key = seen leases now key := by
  cases isLive : live leases later key with
  | none => exact Or.inl (seen_eq_none_iff.mpr isLive)
  | some lease =>
      rcases live_eq_some_iff.mp isLive with ⟨found, holds⟩
      have wasLive := live_eq_some_iff.mpr ⟨found, Lease.holds_of_le before holds⟩
      right
      rw [seen, isLive, seen, wasLive]

/-- A key of which the value is there, with a deadline not before a time. -/
def Until (leases : Leases K V) (key : K) (limit : Nat) : Prop :=
  ∃ lease, leases key = some lease ∧ ∀ deadline ∈ lease.deadline, limit ≤ deadline

/-- A key of which nothing is there from a time on. -/
def Within (leases : Leases K V) (key : K) (limit : Nat) : Prop :=
  ∀ lease, leases key = some lease → ∃ deadline ∈ lease.deadline, deadline ≤ limit

theorem Until.mono {limit less : Nat} (holds : Until leases key limit) (le : less ≤ limit) :
    Until leases key less := by
  rcases holds with ⟨lease, found, after⟩
  exact ⟨lease, found, fun deadline member => Nat.le_trans le (after deadline member)⟩

theorem Within.mono {limit more : Nat} (within : Within leases key limit) (le : limit ≤ more) :
    Within leases key more := by
  intro lease found
  rcases within lease found with ⟨deadline, member, before⟩
  exact ⟨deadline, member, Nat.le_trans before le⟩

theorem Until.exists_live {limit : Nat} (holds : Until leases key limit) (before : now < limit) :
    ∃ lease, live leases now key = some lease ∧ ∀ deadline ∈ lease.deadline, limit ≤ deadline := by
  rcases holds with ⟨lease, found, after⟩
  refine ⟨lease, live_eq_some_iff.mpr ⟨found, ?_⟩, after⟩
  rw [Lease.holds]
  cases isDeadline : lease.deadline with
  | none => rfl
  | some deadline => exact decide_eq_true (Nat.lt_of_lt_of_le before (after deadline isDeadline))

theorem Until.exists_seen {limit : Nat} (holds : Until leases key limit) (before : now < limit) :
    ∃ value, seen leases now key = some value := by
  rcases holds.exists_live before with ⟨lease, isLive, -⟩
  exact ⟨lease.value, by rw [seen, isLive, Option.map_some]⟩

theorem Within.seen_eq_none {limit : Nat} (within : Within leases key limit)
    (reached : limit ≤ now) : seen leases now key = none := by
  rw [seen_eq_none_iff, live, Option.filter_eq_none_iff]
  intro lease found holds
  rcases within lease found with ⟨deadline, member, before⟩
  rw [Lease.holds, Option.mem_def.mp member] at holds
  exact absurd (of_decide_eq_true holds) (Nat.not_lt.mpr (Nat.le_trans before reached))

/-- A deadline that is exactly a time separates what is seen from what is not. -/
theorem seen_ne_none_iff {lease : Lease V} {deadline : Nat} (found : leases key = some lease)
    (isDeadline : lease.deadline = some deadline) :
    seen leases now key ≠ none ↔ now < deadline := by
  constructor
  · intro isSeen
    by_contra reached
    apply isSeen
    apply @Within.seen_eq_none _ _ _ _ _ deadline _ (Nat.not_lt.mp reached)
    intro same sameFound
    cases found.symm.trans sameFound
    exact ⟨deadline, isDeadline, Nat.le_refl _⟩
  · intro before
    have holds : Until leases key deadline := by
      refine ⟨lease, found, fun other member => ?_⟩
      cases isDeadline.symm.trans member
      exact Nat.le_refl _
    rcases holds.exists_seen before with ⟨value, isSeen⟩
    rw [isSeen]
    exact Option.some_ne_none value

/-! ## One command -/

section Perform

variable [DecidableEq K] {op : Op K V} {ops : List (Op K V)}

theorem perform_of_ne (differs : key ≠ op.key) :
    perform term now leases op key = leases key :=
  Function.update_of_ne differs _ _

theorem perform_self :
    perform term now leases op op.key = op.result term now (live leases now op.key) :=
  Function.update_self _ _ _

theorem live_perform_of_ne (differs : key ≠ op.key) :
    live (perform term now leases op) later key = live leases later key := by
  rw [live, perform_of_ne differs, live]

/-- What is seen of a key after a command depends on what was seen of it. -/
theorem seen_perform_self (positive : 0 < term) :
    seen (perform term now leases op) now op.key =
      match op with
      | .put _ value => some value
      | .change _ f => some (f (seen leases now op.key))
      | .renew _ => seen leases now op.key
      | .erase _ => none := by
  have ahead : now < now + term := Nat.lt_add_of_pos_right positive
  rw [seen, live, perform_self]
  cases op with
  | put key value => simp [Op.result, ahead]
  | erase key => rfl
  | renew key =>
      rw [seen]
      simp only [Op.key, Op.result]
      cases live leases now key with
      | none => rfl
      | some lease => simp [ahead]
  | change key f =>
      rw [seen]
      simp only [Op.key, Op.result]
      cases found : live leases now key with
      | none => rfl
      | some lease =>
          have holds := (live_eq_some_iff.mp found).2
          rw [Lease.holds] at holds
          simp only [Option.map_some, Option.bind_some, Option.filter_some, Lease.holds, holds,
            if_true]

/-- Nothing but a command that creates a value brings back what is not there. -/
theorem perform_eq_none (lapsed : live leases now key = none)
    (keeps : op.key = key → ¬ op.Creates) :
    live (perform term now leases op) now key = none := by
  by_cases same : key = op.key
  · subst same
    rw [live, perform_self, lapsed]
    cases op with
    | put _ _ | change _ _ => exact absurd trivial (keeps rfl)
    | renew _ | erase _ => rfl
  · rwa [live_perform_of_ne same]

theorem performAll_eq_none (lapsed : live leases now key = none)
    (keeps : ∀ op ∈ ops, op.key = key → ¬ op.Creates) :
    live (performAll term now leases ops) now key = none := by
  induction ops generalizing leases with
  | nil => exact lapsed
  | cons op rest ih =>
      exact ih (perform_eq_none lapsed (keeps op List.mem_cons_self)) fun other member =>
        keeps other (List.mem_cons_of_mem _ member)

theorem performAll_cons (op : Op K V) (ops : List (Op K V)) :
    performAll term now leases (op :: ops) =
      performAll term now (perform term now leases op) ops :=
  rfl

theorem performAll_append (first second : List (Op K V)) :
    performAll term now leases (first ++ second) =
      performAll term now (performAll term now leases first) second :=
  List.foldl_append

/-- Commands on other keys do not matter. -/
theorem performAll_of_ne (differs : ∀ op ∈ ops, op.key ≠ key) :
    performAll term now leases ops key = leases key := by
  induction ops generalizing leases with
  | nil => rfl
  | cons op rest ih =>
      have here : perform term now leases op key = leases key :=
        perform_of_ne (Ne.symm (differs op List.mem_cons_self))
      rw [← here]
      exact ih fun other member => differs other (List.mem_cons_of_mem _ member)

/-- Renewals do not change what is seen. -/
theorem seen_performAll_of_renew (positive : 0 < term)
    (renews : ∀ op ∈ ops, op.key = key → op = .renew key) :
    seen (performAll term now leases ops) now key = seen leases now key := by
  induction ops generalizing leases with
  | nil => rfl
  | cons op rest ih =>
      have here : seen (perform term now leases op) now key = seen leases now key := by
        by_cases same : key = op.key
        · cases renews op List.mem_cons_self same.symm
          exact seen_perform_self positive
        · rw [seen, live_perform_of_ne same, seen]
      rw [← here]
      exact ih fun other member => renews other (List.mem_cons_of_mem _ member)

/-- A command that does not erase a key keeps its deadline or moves it ahead. -/
theorem Until.perform {limit : Nat} (holds : Until leases key limit) (before : now < limit)
    (soon : limit ≤ now + term) (keeps : op ≠ .erase key) :
    Until (perform term now leases op) key limit := by
  by_cases same : key = op.key
  · subst same
    rcases holds.exists_live before with ⟨lease, isLive, after⟩
    rw [Until, perform_self, isLive]
    cases op with
    | put _ value =>
        refine ⟨_, rfl, fun deadline member => ?_⟩
        cases member
        exact soon
    | change _ f => exact ⟨_, rfl, after⟩
    | renew _ =>
        refine ⟨_, rfl, fun deadline member => ?_⟩
        cases member
        exact soon
    | erase _ => exact absurd rfl keeps
  · rcases holds with ⟨lease, found, after⟩
    exact ⟨lease, (perform_of_ne same).trans found, after⟩

theorem Until.performAll {limit : Nat} (holds : Until leases key limit) (before : now < limit)
    (soon : limit ≤ now + term) (keeps : ∀ op ∈ ops, op ≠ .erase key) :
    Until (performAll term now leases ops) key limit := by
  induction ops generalizing leases with
  | nil => exact holds
  | cons op rest ih =>
      exact ih (holds.perform before soon (keeps op List.mem_cons_self)) fun other member =>
        keeps other (List.mem_cons_of_mem _ member)

/-- Nothing that does not erase a key takes away what is there of it. -/
theorem performAll_ne_none (positive : 0 < term) (found : live leases now key ≠ none)
    (keeps : ∀ op ∈ ops, op ≠ .erase key) :
    live (performAll term now leases ops) now key ≠ none := by
  induction ops generalizing leases with
  | nil => exact found
  | cons op rest ih =>
      apply ih
      · by_cases same : key = op.key
        · subst same
          intro none
          have unseen := seen_eq_none_iff.mpr none
          rw [seen_perform_self positive] at unseen
          cases op with
          | put _ _ | change _ _ => cases unseen
          | renew _ => exact found (seen_eq_none_iff.mp unseen)
          | erase _ => exact keeps _ List.mem_cons_self rfl
        · rwa [live_perform_of_ne same]
      · exact fun other member => keeps other (List.mem_cons_of_mem _ member)

/-- A key with a certain deadline. -/
def Expires (leases : Leases K V) (key : K) (deadline : Nat) : Prop :=
  ∃ value, leases key = some ⟨value, some deadline⟩

omit [DecidableEq K] in
theorem Expires.until {deadline : Nat} (expires : Expires leases key deadline) :
    Until leases key deadline := by
  rcases expires with ⟨value, found⟩
  refine ⟨_, found, fun other member => ?_⟩
  cases member
  exact Nat.le_refl _

omit [DecidableEq K] in
theorem Expires.within {deadline : Nat} (expires : Expires leases key deadline) :
    Within leases key deadline := by
  rcases expires with ⟨value, found⟩
  intro lease same
  cases found.symm.trans same
  exact ⟨deadline, rfl, Nat.le_refl _⟩

/-- A deadline one term ahead stays as it is. -/
theorem Expires.performAll (positive : 0 < term) (expires : Expires leases key (now + term))
    (keeps : ∀ op ∈ ops, op ≠ .erase key) :
    Expires (performAll term now leases ops) key (now + term) := by
  induction ops generalizing leases with
  | nil => exact expires
  | cons op rest ih =>
      apply ih
      · by_cases same : key = op.key
        · subst same
          rcases expires with ⟨value, found⟩
          have isLive : live leases now op.key = some ⟨value, some (now + term)⟩ := by
            rw [live_eq_some_iff]
            exact ⟨found, decide_eq_true (Nat.lt_add_of_pos_right positive)⟩
          rw [Expires, perform_self, isLive]
          cases op with
          | put _ _ | change _ _ | renew _ => exact ⟨_, rfl⟩
          | erase _ => exact absurd rfl (keeps _ List.mem_cons_self)
        · rcases expires with ⟨value, found⟩
          exact ⟨value, (perform_of_ne same).trans found⟩
      · exact fun other member => keeps other (List.mem_cons_of_mem _ member)

/-- A command that extends the deadline of what is there, or puts it, decides the deadline. -/
theorem Op.Extends.expires (extends_ : op.Extends)
    (found : (∃ value, op = .put key value) ∨ op.key = key ∧ live leases now key ≠ none) :
    Expires (perform term now leases op) key (now + term) := by
  rcases found with ⟨value, rfl⟩ | ⟨rfl, found⟩
  · exact ⟨value, perform_self⟩
  · rcases Option.ne_none_iff_exists'.mp found with ⟨lease, isLive⟩
    rw [Expires, perform_self, isLive]
    cases op with
    | put _ _ | renew _ => exact ⟨_, rfl⟩
    | change _ _ | erase _ => cases extends_

/-- So do several commands with such a one among them. -/
theorem expires_performAll (positive : 0 < term) (keeps : ∀ op ∈ ops, op ≠ .erase key)
    (member : op ∈ ops) (extends_ : op.Extends)
    (found : (∃ value, op = .put key value) ∨ op.key = key ∧ live leases now key ≠ none) :
    Expires (performAll term now leases ops) key (now + term) := by
  rcases List.append_of_mem member with ⟨before, after, rfl⟩
  rw [performAll_append]
  have keepsBefore : ∀ other ∈ before, other ≠ .erase key := fun other isBefore =>
    keeps other (List.mem_append_left _ isBefore)
  have expires : Expires (perform term now (performAll term now leases before) op) key
      (now + term) := by
    apply extends_.expires
    exact found.imp_right fun ⟨sameKey, isLive⟩ =>
      ⟨sameKey, performAll_ne_none positive isLive keepsBefore⟩
  have rest := expires.performAll positive fun other (isAfter : other ∈ after) =>
    keeps other (List.mem_append_right _ (List.mem_cons_of_mem _ isAfter))
  exact rest

/-- A key that is made and then renewed. -/
theorem expires_of_change_renew (positive : 0 < term) (keeps : ∀ op ∈ ops, op ≠ .erase key)
    {f : Option V → V} (both : [.change key f, .renew key] <:+: ops) :
    Expires (performAll term now leases ops) key (now + term) := by
  rcases both with ⟨before, after, rfl⟩
  rw [performAll_append, performAll_append]
  generalize performAll term now leases before = middle
  have extends_ : (Op.renew key : Op K V).Extends := trivial
  have made : seen (perform term now middle (.change key f)) now key =
      some (f (seen middle now key)) := seen_perform_self positive
  have expires := @Op.Extends.expires _ _ (perform term now middle (.change key f)) now term key _ _
    extends_ (Or.inr ⟨rfl, fun none => by
      rw [seen_eq_none_iff.mpr none] at made
      cases made⟩)
  exact expires.performAll positive fun other (isAfter : other ∈ after) =>
    keeps other (List.mem_append_right _ isAfter)

/-- Commands on what is there leave a deadline, unless they erase it. -/
theorem Within.performAll {limit : Nat} (within : Within leases key limit)
    (ahead : now + term ≤ limit) (positive : 0 < term) (found : live leases now key ≠ none)
    (keeps : ∀ op ∈ ops, op ≠ .erase key) :
    Within (performAll term now leases ops) key limit := by
  induction ops generalizing leases with
  | nil => exact within
  | cons op rest ih =>
      have keepsHere : ∀ other ∈ [op], other ≠ .erase key := fun other member =>
        keeps other (List.mem_cons.mpr (Or.inl (List.mem_singleton.mp member)))
      apply ih
      · by_cases same : key = op.key
        · subst same
          rcases Option.ne_none_iff_exists'.mp found with ⟨lease, isLive⟩
          intro after
          rw [perform_self, isLive]
          intro isAfter
          cases op with
          | put _ _ | renew _ =>
              cases isAfter
              exact ⟨_, rfl, ahead⟩
          | change _ _ =>
              cases isAfter
              exact within lease (live_eq_some_iff.mp isLive).1
          | erase _ => cases isAfter
        · intro lease
          rw [perform_of_ne same]
          exact within lease
      · exact performAll_ne_none positive found keepsHere
      · exact fun other member => keeps other (List.mem_cons_of_mem _ member)

end Perform

end NestDaq.Expiring
