import NestDaq.Metrics.Age
import NestDaq.Metrics.Keys
import NestDaq.Registry.Presence

/-!
# Expired metrics

At its start, the metrics plugin deletes what instances have left behind that have not
updated their metrics for some time. A field of a hash of sockets is deleted for every
expired instance with whose id it begins.
-/

namespace NestDaq.Metrics

open NestDaq.Registry
open NestDaq.Store

/-- `std::inserter`: fields that are there already keep their values. -/
def insertAll (sockets : Hash) (fields : List (Sigma fun _ : Text => Text)) : Hash :=
  fields.foldl (fun sockets field =>
    if field.1 ∈ sockets then sockets else sockets.insert field.1 field.2) sockets

/-- The fields of the hashes of sockets that are queued for deletion; `sockets` is what
has been read of the hashes so far. -/
def socketDeletions (db : Db) (expired : List Text) : List Text → Hash →
    Option (List (Text × Text))
  | [], _ => some []
  | k :: rest, sockets => do
      let fields ← hgetallOrThrow db k
      let sockets := insertAll sockets fields.entries
      let later ← socketDeletions db expired rest sockets
      some ((expired.flatMap fun instName =>
        (sockets.keys.filter fun sockName => Text.find sockName instName = some 0).map
          fun sockName => (k, sockName)) ++ later)

/-- The fields of the other hashes that are queued for deletion. -/
def instanceDeletions (expired : List Text) : List (Text × Text) :=
  fRegisteredKeys.flatMap fun k => expired.map fun instName => (k, instName)

/-- `exec` of a pipeline of deletions. -/
def deleteAll (db : Db) (deletions : List (Text × Text)) : Db :=
  deletions.foldl (fun db deletion => hdel db deletion.1 deletion.2) db

/-- Delete what the expired instances have left. -/
def deleteFields (expired : List Text) (db : Db) : Option Db := do
  let sockets ← socketDeletions db expired fRegisteredSockKeys ∅
  some (deleteAll db (instanceDeletions expired ++ sockets))

/-- `DeleteExpiredFields` with the lock, `none` where it throws and tries again. -/
def deleteExpiredFields (clock : Text → Int64) (fMaxTtl : Int64) (db : Db) : Option Db := do
  let hashInstanceToLastUpdateNS ← hgetallOrThrow db fLastUpdateNSKey
  let expired ← expiredInstances clock fMaxTtl hashInstanceToLastUpdateNS.entries
  if expired = [] then some db else deleteFields expired db

section Deletions

variable {db : Db} {expired : List Text}

/-- A text begins with a pattern that is found at its start. -/
theorem find_eq_zero_iff {text pattern : Text} :
    Text.find text pattern = some 0 ↔ pattern <+: text := by
  constructor
  · intro found
    cases text with
    | nil =>
        rw [Text.find] at found
        split_ifs at found with empty
        exact empty ▸ List.nil_prefix
    | cons char rest =>
        by_contra differs
        rw [Text.find_cons_of_not_prefix differs, Option.map_eq_some_iff] at found
        obtain ⟨position, _, impossible⟩ := found
        exact Nat.succ_ne_zero _ impossible
  · exact Text.find_of_prefix

theorem mem_insertAll {sockets : Hash} {fields : List (Sigma fun _ : Text => Text)} {field : Text} :
    field ∈ insertAll sockets fields ↔ field ∈ sockets ∨ field ∈ fields.map Sigma.fst := by
  induction fields generalizing sockets with
  | nil => simp [insertAll]
  | cons first rest ih =>
      rw [insertAll, List.foldl_cons, ← insertAll, ih, List.map_cons, List.mem_cons]
      split_ifs with present
      · constructor
        · exact fun either => either.imp_right Or.inr
        · rintro (member | rfl | member)
          · exact Or.inl member
          · exact Or.inl present
          · exact Or.inr member
      · rw [AList.mem_insert]
        tauto

theorem hget_deleteAll (deletions : List (Text × Text)) (key field : Text) :
    hget (deleteAll db deletions) key field =
      if (key, field) ∈ deletions then none else hget db key field := by
  induction deletions generalizing db with
  | nil => simp [deleteAll]
  | cons first rest ih =>
      rw [deleteAll, List.foldl_cons, ← deleteAll, ih]
      by_cases inRest : (key, field) ∈ rest
      · rw [if_pos inRest, if_pos (List.mem_cons_of_mem _ inRest)]
      · rw [if_neg inRest]
        by_cases sameKey : key = first.1
        · subst sameKey
          rw [hget_hdel]
          by_cases sameField : field = first.2
          · rw [if_pos sameField, if_pos (by rw [sameField]; exact List.mem_cons_self)]
          · have absent : (first.1, field) ∉ first :: rest := by
              intro member
              rcases List.mem_cons.mp member with same | member
              · exact sameField (congrArg Prod.snd same)
              · exact inRest member
            rw [if_neg sameField, if_neg absent]
        · have absent : (key, field) ∉ first :: rest := by
            intro member
            rcases List.mem_cons.mp member with same | member
            · exact sameKey (congrArg Prod.fst same)
            · exact inRest member
          rw [hget_congr (lookup_hdel_of_ne db sameKey _), if_neg absent]

theorem mem_deleteAll {deletions : List (Text × Text)} {key field : Text} :
    field ∈ hgetall (deleteAll db deletions) key ↔
      (key, field) ∉ deletions ∧ field ∈ hgetall db key := by
  have read := @hget_deleteAll db deletions key field
  rw [← AList.lookup_isSome, ← AList.lookup_isSome, ← hget, ← hget, read]
  by_cases queued : (key, field) ∈ deletions <;> simp [queued]

/-- A field of a hash of sockets is queued exactly if an expired id begins it. -/
theorem mem_socketDeletions {keys : List Text} {sockets : Hash} {deletions : List (Text × Text)}
    (queued : socketDeletions db expired keys sockets = some deletions) {key field : Text}
    (isField : field ∈ hgetall db key) :
    (key, field) ∈ deletions ↔ key ∈ keys ∧ ∃ id ∈ expired, id <+: field := by
  induction keys generalizing sockets deletions with
  | nil =>
      cases queued
      simp
  | cons first rest ih =>
      rw [socketDeletions, Option.bind_eq_bind, Option.bind_eq_some_iff] at queued
      obtain ⟨fields, read, queued⟩ := queued
      obtain ⟨later, queuedLater, same⟩ := Option.bind_eq_some_iff.mp queued
      obtain rfl := Option.some.inj same
      rw [List.mem_append, ih queuedLater]
      simp only [List.mem_flatMap, List.mem_map, List.mem_filter, decide_eq_true_iff,
        find_eq_zero_iff, Prod.mk.injEq, List.mem_cons]
      constructor
      · rintro (⟨id, isExpired, sockName, ⟨_, begins⟩, rfl, rfl⟩ | ⟨member, owned⟩)
        · exact ⟨Or.inl rfl, id, isExpired, begins⟩
        · exact ⟨Or.inr member, owned⟩
      · rintro ⟨rfl | member, id, isExpired, begins⟩
        · left
          refine ⟨id, isExpired, field, ⟨?_, begins⟩, rfl, rfl⟩
          rw [← AList.mem_keys, mem_insertAll]
          right
          rw [eq_hgetall_of_hgetallOrThrow read]
          exact AList.mem_keys.mp isField
        · exact Or.inr ⟨member, id, isExpired, begins⟩

/-- A hash of another kind is not among them. -/
theorem fst_mem_of_mem_socketDeletions {keys : List Text} {sockets : Hash}
    {deletions : List (Text × Text)}
    (queued : socketDeletions db expired keys sockets = some deletions) {key field : Text}
    (member : (key, field) ∈ deletions) : key ∈ keys := by
  induction keys generalizing sockets deletions with
  | nil =>
      cases queued
      cases member
  | cons first rest ih =>
      rw [socketDeletions, Option.bind_eq_bind, Option.bind_eq_some_iff] at queued
      obtain ⟨fields, _, queued⟩ := queued
      obtain ⟨later, queuedLater, same⟩ := Option.bind_eq_some_iff.mp queued
      obtain rfl := Option.some.inj same
      rcases List.mem_append.mp member with here | there
      · obtain ⟨id, _, inMap⟩ := List.mem_flatMap.mp here
        obtain ⟨sockName, _, pair⟩ := List.mem_map.mp inMap
        cases pair
        exact List.mem_cons_self
      · exact List.mem_cons_of_mem _ (ih queuedLater there)

theorem exists_socketDeletions (expired : List Text) {keys : List Text}
    (hashes : ∀ key ∈ keys, ∃ fields, hgetallOrThrow db key = some fields) (sockets : Hash) :
    ∃ deletions, socketDeletions db expired keys sockets = some deletions := by
  induction keys generalizing sockets with
  | nil => exact ⟨[], rfl⟩
  | cons first rest ih =>
      obtain ⟨fields, read⟩ := hashes first List.mem_cons_self
      obtain ⟨later, queued⟩ := ih (fun key member => hashes key (List.mem_cons_of_mem _ member))
        (insertAll sockets fields.entries)
      simp [socketDeletions, read, queued]

theorem mem_instanceDeletions {key field : Text} :
    (key, field) ∈ instanceDeletions expired ↔ key ∈ fRegisteredKeys ∧ field ∈ expired := by
  simp only [instanceDeletions, List.mem_flatMap, List.mem_map, Prod.mk.injEq]
  constructor
  · rintro ⟨key, member, field, isExpired, rfl, rfl⟩
    exact ⟨member, isExpired⟩
  · rintro ⟨member, isExpired⟩
    exact ⟨key, member, field, isExpired, rfl, rfl⟩

end Deletions

/-- The metrics, with the fields of the hashes of sockets. -/
structure Content where
  db : Db
  socketFields : Text → List SocketField
  stored : ∀ key ∈ fRegisteredSockKeys, ∃ fields, hgetallOrThrow db key = some fields ∧
    ∀ text, text ∈ fields ↔ ∃ field ∈ socketFields key, field.text = text

/-- What the expired instances own is deleted, and nothing else. -/
structure Content.Cleaned (content : Content) (expired : List Text) (after : Db) : Prop where
  instances : ∀ key ∈ fRegisteredKeys, ∀ id,
    id ∈ hgetall after key ↔ id ∈ hgetall content.db key ∧ id ∉ expired
  sockets : ∀ key ∈ fRegisteredSockKeys, ∀ field ∈ content.socketFields key,
    field.text ∈ hgetall after key ↔ field.id ∉ expired
  nothingNew : ∀ key field, field ∈ hgetall after key → field ∈ hgetall content.db key

/-- The id begins the id of the field, or it is that id with a separator and a beginning
of the rest. -/
def SocketField.Begins (id : Text) (field : SocketField) : Prop :=
  id <+: field.id ∨ ∃ more, id = field.id ++ ':' :: more ∧ more <+: field.socket

theorem SocketField.prefix_text_iff {id : Text} {field : SocketField} :
    id <+: field.text ↔ field.Begins id := by
  rw [field.text_eq, Begins]
  constructor
  · intro begins
    rcases List.prefix_or_prefix_of_prefix begins (List.prefix_append field.id _) with
      within | beyond
    · exact Or.inl within
    · obtain ⟨rest, rfl⟩ := beyond
      rw [List.prefix_append_right_inj, List.prefix_cons_iff] at begins
      rcases begins with rfl | ⟨more, rfl, inSocket⟩
      · rw [List.append_nil]
        exact Or.inl List.prefix_rfl
      · exact Or.inr ⟨more, rfl, inSocket⟩
  · rintro (within | ⟨more, rfl, inSocket⟩)
    · exact within.trans (List.prefix_append _ _)
    · rw [List.prefix_append_right_inj, List.prefix_cons_iff]
      exact Or.inr ⟨more, rfl, inSocket⟩

variable {content : Content} {expired : List Text}

theorem Content.mem_hgetall {key : Text} (registered : key ∈ fRegisteredSockKeys)
    {field : SocketField} (member : field ∈ content.socketFields key) :
    field.text ∈ hgetall content.db key := by
  obtain ⟨fields, read, texts⟩ := content.stored key registered
  rw [← eq_hgetall_of_hgetallOrThrow read]
  exact (texts _).mpr ⟨field, member, rfl⟩

/-- What the code deletes: every field of a socket that an expired id begins. -/
structure Content.Swept (content : Content) (expired : List Text) (after : Db) : Prop where
  instances : ∀ key ∈ fRegisteredKeys, ∀ id,
    id ∈ hgetall after key ↔ id ∈ hgetall content.db key ∧ id ∉ expired
  sockets : ∀ key ∈ fRegisteredSockKeys, ∀ field ∈ content.socketFields key,
    field.text ∈ hgetall after key ↔ ∀ id ∈ expired, ¬ field.Begins id
  nothingNew : ∀ key field, field ∈ hgetall after key → field ∈ hgetall content.db key

theorem Content.exists_deleteFields (content : Content) (expired : List Text) :
    ∃ after, deleteFields expired content.db = some after ∧ content.Swept expired after := by
  have hashes (key : Text) (registered : key ∈ fRegisteredSockKeys) :
      ∃ fields, hgetallOrThrow content.db key = some fields := by
    obtain ⟨fields, read, _⟩ := content.stored key registered
    exact ⟨fields, read⟩
  obtain ⟨deletions, queued⟩ := exists_socketDeletions expired hashes ∅
  refine ⟨deleteAll content.db (instanceDeletions expired ++ deletions), ?_, ?_, ?_, ?_⟩
  · rw [deleteFields, queued]
    rfl
  · intro key registered id
    have other : (key, id) ∉ deletions := fun member =>
      disjoint_registeredKeys registered (fst_mem_of_mem_socketDeletions queued member)
    rw [mem_deleteAll, List.mem_append, mem_instanceDeletions]
    simp only [registered, true_and, other, or_false]
    exact and_comm
  · intro key registered field member
    have isField := content.mem_hgetall registered member
    have other : key ∉ fRegisteredKeys := fun isOther =>
      disjoint_registeredKeys isOther registered
    rw [mem_deleteAll, List.mem_append, mem_instanceDeletions,
      mem_socketDeletions queued isField]
    simp only [other, false_and, false_or, registered, true_and, isField, and_true,
      SocketField.prefix_text_iff, not_exists, not_and]
  · intro key field member
    exact (mem_deleteAll.mp member).2

/-- A pass of `DeleteExpiredFields` over natural numbers of nanoseconds. -/
theorem Content.exists_deleteExpiredFields (content : Content) {updates : LastUpdates}
    (read : hgetallOrThrow content.db fLastUpdateNSKey = some updates.hash)
    (clock : Text → Int64) (fMaxTtl : Int64) :
    ∃ expired after, expiredInstances clock fMaxTtl updates.hash.entries = some expired ∧
      deleteExpiredFields clock fMaxTtl content.db = some after ∧ content.Swept expired after := by
  obtain ⟨expired, listed⟩ := updates.exists_expiredInstances clock fMaxTtl
  obtain ⟨after, deleted, swept⟩ := content.exists_deleteFields expired
  by_cases none : expired = []
  · subst none
    refine ⟨[], content.db, listed, ?_, ⟨?_, ?_, fun _ _ => id⟩⟩
    · simp [deleteExpiredFields, read, listed]
    · simp
    · intro key registered field member
      exact iff_of_true (content.mem_hgetall registered member) (by simp)
  · refine ⟨expired, after, listed, ?_, swept⟩
    simp [deleteExpiredFields, read, listed, none, deleted]

/-- Exactly the fields of the expired instances are deleted if and only if no expired id
begins a field of an instance that is not expired. -/
theorem deleteFields_cleaned_iff (content : Content) (expired : List Text) :
    (∃ after, deleteFields expired content.db = some after ∧ content.Cleaned expired after) ↔
      ∀ key ∈ fRegisteredSockKeys, ∀ field ∈ content.socketFields key, field.id ∉ expired →
        ∀ id ∈ expired, ¬ field.Begins id := by
  obtain ⟨after, deleted, swept⟩ := content.exists_deleteFields expired
  constructor
  · rintro ⟨other, same, cleaned⟩ key registered field member alive
    cases deleted.symm.trans same
    exact (swept.sockets key registered field member).mp
      ((cleaned.sockets key registered field member).mpr alive)
  · intro apart
    refine ⟨after, deleted, swept.instances, fun key registered field member => ?_,
      swept.nothingNew⟩
    rw [swept.sockets key registered field member]
    constructor
    · intro kept isExpired
      exact kept field.id isExpired (Or.inl List.prefix_rfl)
    · exact apart key registered field member

/-- A socket of the eleventh instance. -/
def eleventhField : SocketField :=
  ⟨"Sampler-10".toList, "out".toList, 0, none⟩

def eleventhHash : Hash :=
  setFields ∅ [(eleventhField.text, "5".toList)]

def eleventhDb : Db :=
  fRegisteredSockKeys.foldl (fun db key => hset db key [(eleventhField.text, "5".toList)]) ∅

theorem eleventhHashes : ∀ key ∈ fRegisteredSockKeys,
    (hgetallOrThrow eleventhDb key).map AList.entries = some eleventhHash.entries := by
  decide +kernel

/-- The metrics of that instance. -/
def eleventhContent : Content where
  db := eleventhDb
  socketFields _ := [eleventhField]
  stored := by
    intro key registered
    obtain ⟨fields, read, entries⟩ := Option.map_eq_some_iff.mp (eleventhHashes key registered)
    refine ⟨fields, read, fun text => ?_⟩
    obtain rfl : fields = eleventhHash := AList.ext entries
    simp [eleventhHash, mem_setFields, eq_comm]

/-- When the second instance has expired, a field of the eleventh is deleted. -/
theorem eleventh_not_cleaned :
    ¬ ∀ (content : Content) (expired : List Text), ∃ after,
      deleteFields expired content.db = some after ∧ content.Cleaned expired after := by
  intro cleans
  obtain ⟨after, deleted, cleaned⟩ := cleans eleventhContent ["Sampler-1".toList]
  have gone : (deleteFields ["Sampler-1".toList] eleventhContent.db).any
      (fun after => eleventhField.text ∉ hgetall after fSockKey.msgOut) = true := by
    decide +kernel
  rw [deleted, Option.any_some, decide_eq_true_iff] at gone
  exact gone ((cleaned.sockets fSockKey.msgOut (by decide +kernel) eleventhField
    List.mem_cons_self).mpr (by decide +kernel))

end NestDaq.Metrics
