import Mathlib.Data.List.Perm.Subperm
import NestDaq.Registry.Keys

/-!
# Identity of an instance

`SetId` gives an instance its id. Unless the id is an option, the instance takes
an index of its service under a lock: indices of instances without a presence are
given back first, an index that is mapped to the instance already is meant to be
reused, and otherwise the least free index is taken and the presence is written.
-/

namespace NestDaq.Registry

open Store

/-- The members of the plugin that `SetId` works on. -/
structure Identity where
  fServiceName : Text
  fUuid : Text
  idProperty : Option Text := none
  fId : Text := []
  presence : Text := []
  fRegisteredKeys : List Text := []
  fRegisteredHashes : List (Text × Text) := []

/-- `<top>:service-instance-index:<service>`. -/
def indexKey (service : Text) : Text :=
  Text.join [topPrefix, serviceInstanceIndexPrefix, service] colon

/-- The id of an instance with an index. -/
def indexedId (service index : Text) : Text :=
  service ++ '-' :: index

/-- `MGET` into strings, which throws for a key that holds none. -/
def mget (db : Db) (keys : List Text) : Option (List Text) :=
  keys.mapM (get db)

/-- `HGETALL`, which throws for a key that holds something else. -/
def hgetallOrThrow (db : Db) (key : Text) : Option Hash :=
  match db.lookup key with
  | none => some ∅
  | some (.hash fields) => some fields
  | some _ => none

/-- The indices of instances that are not present. -/
def indexExpired (hashIndexToUuid : Hash) (uuidList : List Text) : List Text :=
  (hashIndexToUuid.entries.filter fun entry => entry.2 ∉ uuidList).map (·.1)

/-- The index found for the own uuid, empty if there is none. -/
def myIndex (hashIndexToUuid : Hash) (uuidList : List Text) (myUuid : Text) : Text :=
  hashIndexToUuid.entries.foldl (fun found entry =>
    if entry.2 ∈ uuidList ∧ entry.2 = myUuid then entry.1 else found) []

/-- Delete several fields of a hash. -/
def hdelAll (db : Db) (key : Text) (fields : List Text) : Db :=
  fields.foldl (fun db field => hdel db key field) db

/-- Count from an index to one that is not a field, in a number of steps. -/
def countFree (hash : Hash) : Nat → Nat → Nat
  | 0, index => index
  | steps + 1, index =>
    if Text.decimal index ∈ hash then countFree hash steps (index + 1) else index

/-- The least index that is not a field, where the loop over `HSETNX` ends. -/
def freeIndex (hash : Hash) : Nat :=
  countFree hash hash.keys.length 0

namespace Identity

variable (self : Identity) (db : Db)

/-- Take the least free index and write the presence. -/
def allocate : Identity × Db :=
  let key := indexKey self.fServiceName
  let index := Text.decimal (freeIndex (hgetall db key))
  let fId := indexedId self.fServiceName index
  let presence := presenceKey self.fServiceName fId
  ({ self with
      fId := fId
      presence := presence
      fRegisteredKeys := self.fRegisteredKeys.insert presence
      fRegisteredHashes := self.fRegisteredHashes.insert (key, index) },
    set (hsetnx db key index self.fUuid).1 presence self.fUuid)

/-- What `SetId` does while it has the lock, `none` where it throws and tries again. -/
def lockedSection : Option (Identity × Db) := do
  let key := indexKey self.fServiceName
  let uuidList ← mget db (scan db (presenceKey self.fServiceName ['*']))
  let hashIndexToUuid ← hgetallOrThrow db key
  let db := hdelAll db key (indexExpired hashIndexToUuid uuidList)
  if myIndex hashIndexToUuid uuidList self.fUuid = [] then some (self.allocate db)
  else some (self, db)

/-- The property that holds the id. -/
def publishId : Identity :=
  { self with idProperty := some self.fId }

/-- Without an id the uuid takes its place. -/
def idOrUuid : Identity :=
  if self.fId = [] then publishId { self with fId := self.fUuid } else self

/-- `SetId`. -/
def setId : Option (Identity × Db) :=
  let self := { self with fId := self.idProperty.getD self.fId }
  if self.fId = [] ∧ self.fServiceName ≠ [] then
    (self.lockedSection db).map fun result => (result.1.publishId.idOrUuid, result.2)
  else some (self.idOrUuid, db)

end Identity

theorem countFree_spec (hash : Hash) (steps index : Nat) :
    index ≤ countFree hash steps index ∧ countFree hash steps index ≤ index + steps ∧
      (∀ other, index ≤ other → other < countFree hash steps index → Text.decimal other ∈ hash) ∧
      (countFree hash steps index < index + steps →
        Text.decimal (countFree hash steps index) ∉ hash) := by
  induction steps generalizing index with
  | zero =>
      refine ⟨le_rfl, le_rfl, fun other below above => ?_, fun below => ?_⟩
      · exact absurd above (Nat.not_lt_of_le below)
      · exact absurd below (Nat.lt_irrefl _)
  | succ steps ih =>
      rw [countFree]
      split_ifs with taken
      · obtain ⟨least, bounded, occupied, free⟩ := ih (index + 1)
        refine ⟨by omega, by omega, fun other below above => ?_, fun below => free (by omega)⟩
        rcases Nat.eq_or_lt_of_le below with rfl | below
        · exact taken
        · exact occupied other below above
      · refine ⟨le_rfl, Nat.le_add_right _ _, fun other below above => ?_, fun _ => taken⟩
        exact absurd above (Nat.not_lt_of_le below)

/-- The loop ends at the least index that is not a field. -/
theorem freeIndex_eq_iff {hash : Hash} {index : Nat} :
    freeIndex hash = index ↔
      Text.decimal index ∉ hash ∧ ∀ other < index, Text.decimal other ∈ hash := by
  have spec : Text.decimal (freeIndex hash) ∉ hash ∧
      ∀ other < freeIndex hash, Text.decimal other ∈ hash := by
    obtain ⟨-, bounded, occupied, free⟩ := countFree_spec hash hash.keys.length 0
    have below : ∀ other < freeIndex hash, Text.decimal other ∈ hash :=
      fun other => occupied other (Nat.zero_le _)
    refine ⟨?_, below⟩
    rcases Nat.lt_or_ge (freeIndex hash) hash.keys.length with fewer | all
    · exact free (by rw [Nat.zero_add]; exact fewer)
    · intro taken
      have fields : (List.range (freeIndex hash + 1)).map Text.decimal ⊆ hash.keys := by
        intro field member
        obtain ⟨other, inRange, rfl⟩ := List.mem_map.mp member
        rcases Nat.lt_succ_iff_lt_or_eq.mp (List.mem_range.mp inRange) with before | rfl
        · exact AList.mem_keys.mp (below other before)
        · exact AList.mem_keys.mp taken
      have few := (List.Nodup.subperm
        (List.nodup_range.map Text.decimal_injective) fields).length_le
      rw [List.length_map, List.length_range] at few
      omega
  constructor
  · rintro rfl
    exact spec
  · rintro ⟨free, occupied⟩
    rcases Nat.lt_trichotomy (freeIndex hash) index with less | same | more
    · exact absurd (occupied _ less) spec.1
    · exact same
    · exact absurd (spec.2 _ more) free

end NestDaq.Registry
