import NestDaq.Number.Double
import NestDaq.Store.Db
import Mathlib.Tactic.Positivity

/-!
# Ages of metrics

An instance has expired when its last update is too long ago. The age is a difference
of unsigned numbers of nanoseconds, so an update from a clock that is ahead is very
old, and it is compared in milliseconds as a `double`.
-/

namespace NestDaq.Metrics

open NestDaq.Number
open NestDaq.Store

/-- A number of at most 64 bits. -/
def toUInt64 (n : Nat) : Option UInt64 :=
  if n < 2 ^ 64 then some (UInt64.ofNat n) else none

/-- `std::stoull`: leading white space and a sign are accepted, text after the digits is
ignored, and a string without digits and a number of more than 64 bits throw. -/
def stoull (text : Text) : Option UInt64 :=
  match text.dropWhile Char.isWhitespace with
  | '-' :: rest => ((Text.leadingNat rest).bind toUInt64).map fun n => -n
  | '+' :: rest => (Text.leadingNat rest).bind toUInt64
  | rest => (Text.leadingNat rest).bind toUInt64

/-- `tNow - tNS`, an unsigned number like its second operand. -/
def difference (tNow : Int64) (tNS : UInt64) : UInt64 :=
  tNow.toUInt64 - tNS

/-- A number of nanoseconds divided by `1e6`. -/
def milliseconds (nanoseconds : UInt64) : ℚ :=
  toDouble (toDouble nanoseconds.toNat / 10 ^ 6)

/-- The comparison with the largest age. -/
def exceeds (nanoseconds : UInt64) (fMaxTtl : Int64) : Bool :=
  toDouble fMaxTtl.toInt < milliseconds nanoseconds

/-- The instances whose last update is too old; `clock` is the time that is read for an
instance. -/
def expiredInstances (clock : Text → Int64) (fMaxTtl : Int64) :
    List (Sigma fun _ : Text => Text) → Option (List Text)
  | [] => some []
  | ⟨k, v⟩ :: rest => do
      let tNS ← stoull v
      let later ← expiredInstances clock fMaxTtl rest
      if exceeds (difference (clock k) tNS) fMaxTtl then some (k :: later) else some later

/-- Up to fifty-three binary digits, the comparison of the rounded numbers is that of the
numbers. -/
theorem exceeds_iff {nanoseconds : UInt64} {fMaxTtl : Int64} (positive : 0 < fMaxTtl.toInt)
    (digits : fMaxTtl.toInt * 10 ^ 6 < 2 ^ 53) :
    exceeds nanoseconds fMaxTtl = true ↔ fMaxTtl.toInt * 10 ^ 6 < nanoseconds.toNat := by
  obtain ⟨limit, same⟩ := Int.eq_ofNat_of_zero_le positive.le
  rw [exceeds, decide_eq_true_iff, milliseconds, same]
  rw [same] at positive digits
  have limitDigits : limit < 2 ^ 53 := by omega
  rw [Int.cast_natCast, toDouble_natCast limitDigits]
  constructor
  · intro longer
    by_contra young
    have bounded : nanoseconds.toNat ≤ limit * 10 ^ 6 := by omega
    have quotient : (nanoseconds.toNat : ℚ) / 10 ^ 6 ≤ limit := by
      rw [div_le_iff₀ (by norm_num)]
      exact_mod_cast bounded
    rw [toDouble_natCast (by omega)] at longer
    exact absurd (toDouble_le (by positivity) quotient limitDigits) (not_le.mpr longer)
  · intro old
    have next : limit * 10 ^ 6 + 1 ≤ nanoseconds.toNat := by omega
    have nextDigits : limit * 10 ^ 6 + 1 < 2 ^ 53 := by omega
    have isPositive : (0 : ℚ) < nanoseconds.toNat := by
      have : 0 < nanoseconds.toNat := by omega
      exact_mod_cast this
    have rounded := le_toDouble isPositive (by exact_mod_cast next) nextDigits
    apply @lt_toDouble _ limit 34 (by omega)
    have apart : (2 : ℚ) ^ (((34 : ℕ) : ℤ) - 54) < 1 / 10 ^ 6 := by norm_num
    have quotient : (limit : ℚ) + 1 / 10 ^ 6 ≤ toDouble nanoseconds.toNat / 10 ^ 6 := by
      rw [le_div_iff₀ (by norm_num)]
      push_cast at rounded
      linarith
    linarith

theorem toNat_ofNat_toNat {value : ℤ} (nonneg : 0 ≤ value) (small : value < 2 ^ 64) :
    ((UInt64.ofNat value.toNat).toNat : ℤ) = value := by
  have bounded : value.toNat < UInt64.size := by
    unfold UInt64.size
    omega
  have same : (UInt64.ofNat value.toNat).toNat = value.toNat := UInt64.toNat_ofNat_of_lt bounded
  rw [same, Int.toNat_of_nonneg nonneg]

/-- The difference of unsigned numbers. -/
theorem toNat_difference (tNow : Int64) {last : Nat} (bounded : last < 2 ^ 63) :
    ((difference tNow (UInt64.ofNat last)).toNat : ℤ) = (tNow.toInt - last) % 2 ^ 64 := by
  have unsigned : tNow.toInt = if 2 * tNow.toUInt64.toNat < 2 ^ 64 then
      (tNow.toUInt64.toNat : ℤ) else (tNow.toUInt64.toNat : ℤ) - 2 ^ 64 :=
    BitVec.toInt_eq_toNat_cond tNow.toBitVec
  have small := tNow.toUInt64.toNat_lt
  have lastSmall : (UInt64.ofNat last).toNat = last :=
    UInt64.toNat_ofNat_of_lt (by unfold UInt64.size; omega)
  rw [difference, UInt64.toNat_sub, lastSmall, unsigned]
  split_ifs <;> omega

theorem stoull_decimal {n : Nat} (bounded : n < 2 ^ 64) :
    stoull (Text.decimal n) = some (UInt64.ofNat n) := by
  cases digits : Text.decimal n with
  | nil => exact absurd digits (Text.decimal_ne_nil n)
  | cons first rest =>
      have isDigit : first.isDigit :=
        Text.isDigit_of_mem_decimal (digits ▸ List.mem_cons_self : first ∈ Text.decimal n)
      have value := Text.leadingNat_decimal n
      rw [digits] at value
      have small : toUInt64 n = some (UInt64.ofNat n) := if_pos bounded
      simp [stoull, Text.not_isWhitespace_of_isDigit isDigit,
        Text.ne_of_isDigit isDigit (show '-'.isDigit = false by decide),
        Text.ne_of_isDigit isDigit (show '+'.isDigit = false by decide), value, small]

/-- The last updates, as natural numbers of nanoseconds. -/
structure LastUpdates where
  hash : Hash
  lastUpdate : Text → Nat
  stored : ∀ id text, hash.lookup id = some text → text = Text.decimal (lastUpdate id)
  bounded : ∀ id ∈ hash, lastUpdate id < 2 ^ 63

variable {clock : Text → Int64} {fMaxTtl : Int64}

/-- An instance expires when the difference is too large. -/
theorem expiredInstances_spec (lastUpdate : Text → Nat)
    {entries : List (Sigma fun _ : Text => Text)}
    (stored : ∀ entry ∈ entries, entry.2 = Text.decimal (lastUpdate entry.1) ∧
      lastUpdate entry.1 < 2 ^ 63) :
    ∃ expired, expiredInstances clock fMaxTtl entries = some expired ∧
      ∀ id, id ∈ expired ↔ id ∈ entries.map Sigma.fst ∧
        exceeds (difference (clock id) (UInt64.ofNat (lastUpdate id))) fMaxTtl = true := by
  induction entries with
  | nil => exact ⟨[], rfl, by simp⟩
  | cons entry rest ih =>
      obtain ⟨later, listed, spec⟩ := ih fun other member =>
        stored other (List.mem_cons_of_mem _ member)
      obtain ⟨k, v⟩ := entry
      obtain ⟨text, small⟩ := stored ⟨k, v⟩ List.mem_cons_self
      obtain rfl : v = Text.decimal (lastUpdate k) := text
      have number : stoull (Text.decimal (lastUpdate k)) = some (UInt64.ofNat (lastUpdate k)) :=
        stoull_decimal (small.trans (by norm_num))
      simp only [expiredInstances, number, listed, Option.bind_eq_bind, Option.bind_some,
        List.map_cons, List.mem_cons]
      split_ifs with old
      · refine ⟨_, rfl, fun id => ?_⟩
        rw [List.mem_cons, spec]
        constructor
        · rintro (rfl | ⟨member, exceeding⟩)
          · exact ⟨Or.inl rfl, old⟩
          · exact ⟨Or.inr member, exceeding⟩
        · rintro ⟨rfl | member, exceeding⟩
          · exact Or.inl rfl
          · exact Or.inr ⟨member, exceeding⟩
      · refine ⟨_, rfl, fun id => ?_⟩
        rw [spec]
        constructor
        · rintro ⟨member, exceeding⟩
          exact ⟨Or.inr member, exceeding⟩
        · rintro ⟨rfl | member, exceeding⟩
          · exact absurd exceeding old
          · exact ⟨member, exceeding⟩

/-- The nanoseconds that have passed since the last update, negative for an update of
which the clock is ahead. -/
def LastUpdates.elapsed (updates : LastUpdates) (clock : Text → Int64) (id : Text) : ℤ :=
  (clock id).toInt - updates.lastUpdate id

/-- Exactly the instances expire whose last update is too long ago. -/
def LastUpdates.Sound (updates : LastUpdates) (clock : Text → Int64) (fMaxTtl : Int64) : Prop :=
  ∃ expired, expiredInstances clock fMaxTtl updates.hash.entries = some expired ∧
    ∀ id ∈ updates.hash, id ∈ expired ↔ fMaxTtl.toInt * 10 ^ 6 < updates.elapsed clock id

/-- The comparison of a number of nanoseconds in milliseconds is exact. -/
def Exact (fMaxTtl : Int64) (nanoseconds : ℤ) : Prop :=
  exceeds (UInt64.ofNat nanoseconds.toNat) fMaxTtl = true ↔ fMaxTtl.toInt * 10 ^ 6 < nanoseconds

/-- The condition for one instance: no update from the future, unless the difference is
small all the same, and no loss in the comparison. -/
def LastUpdates.Comparable (updates : LastUpdates) (clock : Text → Int64) (fMaxTtl : Int64)
    (id : Text) : Prop :=
  if 0 ≤ updates.elapsed clock id then Exact fMaxTtl (updates.elapsed clock id)
  else exceeds (UInt64.ofNat (2 ^ 64 + updates.elapsed clock id).toNat) fMaxTtl = false

theorem LastUpdates.stored_entries (updates : LastUpdates) :
    ∀ entry ∈ updates.hash.entries, entry.2 = Text.decimal (updates.lastUpdate entry.1) ∧
      updates.lastUpdate entry.1 < 2 ^ 63 := by
  intro entry member
  exact ⟨updates.stored entry.1 entry.2 (AList.mem_lookup_iff.mpr member),
    updates.bounded entry.1 (AList.mem_keys.mpr (List.mem_map_of_mem member))⟩

/-- The loop over the instances does not throw. -/
theorem LastUpdates.exists_expiredInstances (updates : LastUpdates) (clock : Text → Int64)
    (fMaxTtl : Int64) :
    ∃ expired, expiredInstances clock fMaxTtl updates.hash.entries = some expired := by
  obtain ⟨expired, listed, _⟩ := @expiredInstances_spec clock fMaxTtl updates.lastUpdate _
    updates.stored_entries
  exact ⟨expired, listed⟩

theorem LastUpdates.sound_iff_forall (updates : LastUpdates) (clock : Text → Int64)
    (fMaxTtl : Int64) :
    updates.Sound clock fMaxTtl ↔ ∀ id ∈ updates.hash,
      (exceeds (difference (clock id) (UInt64.ofNat (updates.lastUpdate id))) fMaxTtl = true ↔
        fMaxTtl.toInt * 10 ^ 6 < updates.elapsed clock id) := by
  obtain ⟨expired, listed, spec⟩ := @expiredInstances_spec clock fMaxTtl updates.lastUpdate _
    updates.stored_entries
  have members (id : Text) (member : id ∈ updates.hash) : id ∈ expired ↔
      exceeds (difference (clock id) (UInt64.ofNat (updates.lastUpdate id))) fMaxTtl = true :=
    (spec id).trans (and_iff_right (AList.mem_keys.mp member))
  constructor
  · rintro ⟨other, same, sound⟩ id member
    cases listed.symm.trans same
    exact (members id member).symm.trans (sound id member)
  · intro sound
    exact ⟨expired, listed, fun id member => (members id member).trans (sound id member)⟩

/-- The difference as a number that wraps around below zero. -/
theorem LastUpdates.difference_eq (updates : LastUpdates) (clock : Text → Int64) {id : Text}
    (member : id ∈ updates.hash) :
    difference (clock id) (UInt64.ofNat (updates.lastUpdate id)) =
      UInt64.ofNat (if 0 ≤ updates.elapsed clock id then updates.elapsed clock id
        else 2 ^ 64 + updates.elapsed clock id).toNat := by
  have bounded := updates.bounded id member
  have value := toNat_difference (clock id) bounded
  have above := (clock id).toInt_lt
  have below := (clock id).le_toInt
  rw [← UInt64.toNat_inj, ← @Nat.cast_inj ℤ, value, toNat_ofNat_toNat]
  all_goals
    unfold LastUpdates.elapsed
    split_ifs <;> omega

theorem LastUpdates.comparable_iff (updates : LastUpdates) (clock : Text → Int64)
    (positive : 0 < fMaxTtl.toInt) {id : Text} (member : id ∈ updates.hash) :
    (exceeds (difference (clock id) (UInt64.ofNat (updates.lastUpdate id))) fMaxTtl = true ↔
      fMaxTtl.toInt * 10 ^ 6 < updates.elapsed clock id) ↔
      updates.Comparable clock fMaxTtl id := by
  rw [updates.difference_eq clock member, LastUpdates.Comparable]
  split_ifs with past
  · exact Iff.rfl
  · have never : ¬ fMaxTtl.toInt * 10 ^ 6 < updates.elapsed clock id := by omega
    rw [iff_false_right never, Bool.not_eq_true]

/-- The condition where no difference is too large to be compared exactly. -/
theorem LastUpdates.comparable_iff_of_digits (updates : LastUpdates) (clock : Text → Int64)
    (positive : 0 < fMaxTtl.toInt) (digits : fMaxTtl.toInt * 10 ^ 6 < 2 ^ 53) {id : Text}
    (member : id ∈ updates.hash) :
    updates.Comparable clock fMaxTtl id ↔
      0 ≤ updates.elapsed clock id ∨
        2 ^ 64 + updates.elapsed clock id ≤ fMaxTtl.toInt * 10 ^ 6 := by
  have bounded := updates.bounded id member
  have above := (clock id).toInt_lt
  have below := (clock id).le_toInt
  have elapsed : updates.elapsed clock id = (clock id).toInt - updates.lastUpdate id := rfl
  rw [LastUpdates.Comparable]
  split_ifs with past
  · refine iff_of_true ?_ (Or.inl past)
    rw [Exact, exceeds_iff positive digits, toNat_ofNat_toNat past (by omega)]
  · rw [or_iff_right past, ← Bool.not_eq_true, exceeds_iff positive digits,
      toNat_ofNat_toNat (by omega) (by omega), not_lt]

/-- Exactly the instances expire whose last update is too long ago if and only if the
difference of each is comparable; that is, for a largest age of less than a hundred days,
if no update is from the future. -/
theorem LastUpdates.sound_iff (updates : LastUpdates) (clock : Text → Int64) (fMaxTtl : Int64)
    (positive : 0 < fMaxTtl.toInt) :
    (updates.Sound clock fMaxTtl ↔
        ∀ id ∈ updates.hash, updates.Comparable clock fMaxTtl id) ∧
      (fMaxTtl.toInt * 10 ^ 6 < 2 ^ 53 → ∀ id ∈ updates.hash,
        (updates.Comparable clock fMaxTtl id ↔
          0 ≤ updates.elapsed clock id ∨
            2 ^ 64 + updates.elapsed clock id ≤ fMaxTtl.toInt * 10 ^ 6)) := by
  constructor
  · rw [updates.sound_iff_forall]
    exact forall₂_congr fun id member => updates.comparable_iff clock positive member
  · intro digits id member
    exact updates.comparable_iff_of_digits clock positive digits member

/-- One instance that was updated two seconds after the epoch. -/
def samplerUpdates : LastUpdates where
  hash := (∅ : Hash).insert "Sampler-0".toList (Text.decimal 2000000000)
  lastUpdate _ := 2000000000
  stored := by
    intro id text found
    by_cases same : id = "Sampler-0".toList
    · subst same
      rw [AList.lookup_insert] at found
      exact (Option.some.inj found).symm
    · rw [AList.lookup_insert_ne same, AList.lookup_empty] at found
      cases found
  bounded _ _ := by norm_num

/-- Five seconds after the epoch, with a largest age of three seconds. -/
theorem samplerUpdates_sound_iff :
    (samplerUpdates.Sound (fun _ => 5000000000) 3000 ↔
        ∀ id ∈ samplerUpdates.hash, samplerUpdates.Comparable (fun _ => 5000000000) 3000 id) ∧
      ((3000 : Int64).toInt * 10 ^ 6 < 2 ^ 53 → ∀ id ∈ samplerUpdates.hash,
        (samplerUpdates.Comparable (fun _ => 5000000000) 3000 id ↔
          0 ≤ samplerUpdates.elapsed (fun _ => 5000000000) id ∨
            2 ^ 64 + samplerUpdates.elapsed (fun _ => 5000000000) id ≤
              (3000 : Int64).toInt * 10 ^ 6)) :=
  samplerUpdates.sound_iff (fun _ => 5000000000) 3000 (by decide)

/-- A clock one second before that update. -/
def slowClock : Text → Int64 :=
  fun _ => 1000000000

/-- By a clock that is behind, an instance expires that has just been updated. -/
theorem future_not_sound :
    ¬ ∀ (updates : LastUpdates) (clock : Text → Int64) (fMaxTtl : Int64), 0 < fMaxTtl.toInt →
      updates.Sound clock fMaxTtl := by
  intro sound
  have member : "Sampler-0".toList ∈ samplerUpdates.hash := by decide +kernel
  have alive := (samplerUpdates.sound_iff_forall slowClock 3000).mp
    (sound samplerUpdates slowClock 3000 (by decide)) _ member
  rw [samplerUpdates.comparable_iff slowClock (by decide) member,
    samplerUpdates.comparable_iff_of_digits slowClock (by decide) (by decide) member] at alive
  exact absurd alive (by decide +kernel)

end NestDaq.Metrics
