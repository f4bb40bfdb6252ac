import NestDaq.Store.Glob
import Mathlib.Data.List.AList

/-!
# Key-value store

The data types and the commands of the key-value server that the programs use.
The key space is an association list without duplicate keys, so the order of
its entries is the enumeration order of `SCAN`, and likewise for the fields of
a hash. Expiry times are not part of a value; a key that expires is deleted.
-/

namespace NestDaq.Store

/-- The fields of a hash. -/
abbrev Hash := AList fun _ : Text => Text

/-- A stored value. -/
inductive Value where
  | string (text : Text)
  | hash (fields : Hash)
  | list (items : List Text)

/-- The key space of one database. -/
abbrev Db := AList fun _ : Text => Value

/-- `GET`. -/
def get (db : Db) (key : Text) : Option Text :=
  match db.lookup key with
  | some (.string text) => some text
  | _ => none

/-- `HGETALL`, empty for an absent key. -/
def hgetall (db : Db) (key : Text) : Hash :=
  match db.lookup key with
  | some (.hash fields) => fields
  | _ => ∅

/-- `HGET`. -/
def hget (db : Db) (key field : Text) : Option Text :=
  (hgetall db key).lookup field

/-- `LRANGE key 0 -1`, empty for an absent key. -/
def lrange (db : Db) (key : Text) : List Text :=
  match db.lookup key with
  | some (.list items) => items
  | _ => []

/-- All keys matching a pattern, as repeated `SCAN` calls collect them. -/
def scan (db : Db) (pattern : Text) : List Text :=
  db.keys.filter (Glob.stringmatch pattern)

/-- `SET`. -/
def set (db : Db) (key text : Text) : Db :=
  db.insert key (.string text)

/-- Write several fields of a hash, in order. -/
def setFields (hash : Hash) (fields : List (Text × Text)) : Hash :=
  fields.foldl (fun hash field => hash.insert field.1 field.2) hash

/-- `HSET`. -/
def hset (db : Db) (key : Text) (fields : List (Text × Text)) : Db :=
  db.insert key (.hash (setFields (hgetall db key) fields))

/-- `HSETNX`: the field is written only when it is absent. -/
def hsetnx (db : Db) (key field text : Text) : Db × Bool :=
  match hget db key field with
  | some _ => (db, false)
  | none => (hset db key [(field, text)], true)

/-- `HDEL` of one field. -/
def hdel (db : Db) (key field : Text) : Db :=
  match db.lookup key with
  | some (.hash fields) => db.insert key (.hash (fields.erase field))
  | _ => db

/-- `RPUSH`. -/
def rpush (db : Db) (key : Text) (items : List Text) : Db :=
  db.insert key (.list (lrange db key ++ items))

/-- `DEL` of several keys. -/
def del (db : Db) (keys : List Text) : Db :=
  keys.foldl (fun db key => db.erase key) db

/-- A command queued in a pipeline. -/
inductive Command where
  | hset (key : Text) (fields : List (Text × Text))
  | rpush (key : Text) (items : List Text)
  | expire (key : Text)

/-- The effect of one queued command on the stored values. -/
def Command.exec (db : Db) : Command → Db
  | .hset key fields => Store.hset db key fields
  | .rpush key items => Store.rpush db key items
  | .expire _ => db

/-- The key a queued command addresses. -/
def Command.key : Command → Text
  | .hset key _ => key
  | .rpush key _ => key
  | .expire key => key

/-- `exec` of a pipeline: the commands are executed in order. -/
def execAll (db : Db) (commands : List Command) : Db :=
  commands.foldl Command.exec db

section Fields

variable {hash : Hash} {fields : List (Text × Text)} {field value : Text}

theorem lookup_setFields_of_notMem (absent : field ∉ fields.map Prod.fst) :
    (setFields hash fields).lookup field = hash.lookup field := by
  induction fields generalizing hash with
  | nil => rfl
  | cons first rest ih =>
      rw [List.map_cons, List.mem_cons, not_or] at absent
      rw [show setFields hash (first :: rest) =
        setFields (hash.insert first.1 first.2) rest from rfl,
        ih absent.2, AList.lookup_insert_ne absent.1]

theorem mem_setFields :
    field ∈ setFields hash fields ↔ field ∈ fields.map Prod.fst ∨ field ∈ hash := by
  induction fields generalizing hash with
  | nil => simp [setFields]
  | cons first rest ih =>
      rw [show setFields hash (first :: rest) =
        setFields (hash.insert first.1 first.2) rest from rfl,
        ih, AList.mem_insert, List.map_cons, List.mem_cons]
      tauto

/-- A field has a value that was written or the one it had. -/
theorem mem_or_lookup_of_lookup_setFields
    (found : (setFields hash fields).lookup field = some value) :
    (field, value) ∈ fields ∨ hash.lookup field = some value := by
  induction fields generalizing hash with
  | nil => exact Or.inr found
  | cons first rest ih =>
      rcases ih found with inRest | before
      · exact Or.inl (List.mem_cons_of_mem _ inRest)
      · by_cases same : field = first.1
        · subst same
          rw [AList.lookup_insert] at before
          obtain rfl := Option.some.inj before
          exact Or.inl List.mem_cons_self
        · rw [AList.lookup_insert_ne same] at before
          exact Or.inr before

theorem lookup_setFields_of_mem (nodup : (fields.map Prod.fst).Nodup)
    (member : (field, value) ∈ fields) : (setFields hash fields).lookup field = some value := by
  induction fields generalizing hash with
  | nil => simp at member
  | cons first rest ih =>
      rw [List.map_cons, List.nodup_cons] at nodup
      rw [show setFields hash (first :: rest) =
        setFields (hash.insert first.1 first.2) rest from rfl]
      rcases List.mem_cons.mp member with rfl | inRest
      · rw [lookup_setFields_of_notMem nodup.1]
        exact AList.lookup_insert _
      · exact ih nodup.2 inRest

theorem lookup_setFields_append_cons {earlier later : List (Text × Text)}
    (absent : field ∉ later.map Prod.fst) :
    (setFields hash (earlier ++ (field, value) :: later)).lookup field = some value := by
  rw [show setFields hash (earlier ++ (field, value) :: later) =
    setFields ((setFields hash earlier).insert field value) later from List.foldl_append,
    lookup_setFields_of_notMem absent]
  exact AList.lookup_insert _

end Fields

/-! ## What a command changes -/

section Lookup

variable (db : Db) {key other : Text}

theorem get_eq_some_iff {text : Text} :
    get db key = some text ↔ db.lookup key = some (.string text) := by
  rw [get]
  split <;> simp_all

theorem get_congr {first second : Db} (same : first.lookup key = second.lookup key) :
    get first key = get second key := by
  simp [get, same]

theorem hgetall_congr {first second : Db} (same : first.lookup key = second.lookup key) :
    hgetall first key = hgetall second key := by
  simp [hgetall, same]

theorem hget_congr {first second : Db} (same : first.lookup key = second.lookup key)
    (field : Text) : hget first key field = hget second key field := by
  simp [hget, hgetall_congr same]

theorem mem_of_lookup_eq {first second : Db} {key : Text}
    (same : first.lookup key = second.lookup key) : key ∈ first ↔ key ∈ second := by
  rw [← AList.lookup_isSome, same, AList.lookup_isSome]

theorem lrange_congr {first second : Db} (same : first.lookup key = second.lookup key) :
    lrange first key = lrange second key := by
  simp [lrange, same]

@[simp]
theorem mem_scan {pattern : Text} :
    key ∈ scan db pattern ↔ key ∈ db ∧ Glob.stringmatch pattern key := by
  simp [scan, AList.mem_keys]

theorem nodup_scan (pattern : Text) : (scan db pattern).Nodup :=
  db.keys_nodup.filter _

@[simp]
theorem hgetall_hset (fields : List (Text × Text)) :
    hgetall (hset db key fields) key = setFields (hgetall db key) fields := by
  simp [hset, hgetall]

@[simp]
theorem lrange_rpush (items : List Text) :
    lrange (rpush db key items) key = lrange db key ++ items := by
  simp [rpush, lrange]

@[simp]
theorem get_set (text : Text) : get (set db key text) key = some text := by
  simp [get, set]

theorem lookup_hset_of_ne (differs : other ≠ key) (fields : List (Text × Text)) :
    (hset db key fields).lookup other = db.lookup other :=
  AList.lookup_insert_ne differs

theorem lookup_rpush_of_ne (differs : other ≠ key) (items : List Text) :
    (rpush db key items).lookup other = db.lookup other :=
  AList.lookup_insert_ne differs

theorem lookup_set_of_ne (differs : other ≠ key) (text : Text) :
    (set db key text).lookup other = db.lookup other :=
  AList.lookup_insert_ne differs

theorem lookup_hdel_of_ne (differs : other ≠ key) (field : Text) :
    (hdel db key field).lookup other = db.lookup other := by
  unfold hdel
  split
  · exact AList.lookup_insert_ne differs
  · rfl

theorem lookup_hsetnx_of_ne (differs : other ≠ key) (field text : Text) :
    (hsetnx db key field text).1.lookup other = db.lookup other := by
  unfold hsetnx
  split
  · rfl
  · exact lookup_hset_of_ne db differs _

theorem lookup_del (keys : List Text) :
    (del db keys).lookup key = if key ∈ keys then none else db.lookup key := by
  induction keys generalizing db with
  | nil => simp [del]
  | cons first keys ih =>
      rw [show del db (first :: keys) = del (db.erase first) keys from rfl, ih]
      by_cases inRest : key ∈ keys
      · simp [inRest]
      · by_cases isFirst : key = first
        · subst isFirst
          simp
        · simp [inRest, isFirst, AList.lookup_erase_ne isFirst]

theorem mem_del {keys : List Text} : key ∈ del db keys ↔ key ∉ keys ∧ key ∈ db := by
  rw [← AList.lookup_isSome, lookup_del, ← AList.lookup_isSome]
  by_cases member : key ∈ keys <;> simp [member]

/-- A field just written is read back; the others are kept. -/
theorem hget_hset (fields : List (Text × Text)) (field : Text) :
    hget (hset db key fields) key field = (setFields (hgetall db key) fields).lookup field := by
  simp [hget]

theorem hget_hdel (field other : Text) :
    hget (hdel db key field) key other =
      if other = field then none else hget db key other := by
  cases stored : db.lookup key with
  | none => simp [hget, hdel, hgetall, stored]
  | some value =>
      cases value with
      | string text => simp [hget, hdel, hgetall, stored]
      | list items => simp [hget, hdel, hgetall, stored]
      | hash fields =>
          by_cases same : other = field
          · subst same
            simp [hget, hdel, hgetall, stored]
          · simp [hget, hdel, hgetall, stored, same, AList.lookup_erase_ne same]

theorem isSome_hget_hset {field : Text} (fields : List (Text × Text)) :
    (hget (hset db key fields) key field).isSome ↔
      field ∈ fields.map Prod.fst ∨ (hget db key field).isSome := by
  rw [hget_hset, AList.lookup_isSome, mem_setFields, hget, AList.lookup_isSome]

theorem Command.lookup_exec_of_ne (command : Command) (differs : other ≠ command.key) :
    (command.exec db).lookup other = db.lookup other := by
  cases command with
  | hset key fields => exact lookup_hset_of_ne db differs fields
  | rpush key items => exact lookup_rpush_of_ne db differs items
  | expire key => rfl

end Lookup

/-- A pipeline leaves the keys it does not address unchanged. -/
theorem lookup_execAll_of_notMem (db : Db) (commands : List Command) {key : Text}
    (untouched : ∀ command ∈ commands, key ≠ command.key) :
    (execAll db commands).lookup key = db.lookup key := by
  induction commands generalizing db with
  | nil => rfl
  | cons command commands ih =>
      have rest := ih (command.exec db) fun c member =>
        untouched c (List.mem_cons_of_mem _ member)
      exact rest.trans (command.lookup_exec_of_ne db (untouched command List.mem_cons_self))

/-- A pipeline never removes a field of a hash, unless it pushes to its key. -/
theorem isSome_hget_execAll (db : Db) (commands : List Command) {key field : Text}
    (noPush : ∀ items, Command.rpush key items ∉ commands)
    (present : (hget db key field).isSome) : (hget (execAll db commands) key field).isSome := by
  induction commands generalizing db with
  | nil => exact present
  | cons command commands ih =>
      apply ih _ fun items member => noPush items (List.mem_cons_of_mem _ member)
      by_cases same : key = command.key
      · cases command with
        | hset other fields =>
            obtain rfl : key = other := same
            exact (isSome_hget_hset db fields).mpr (Or.inr present)
        | rpush other items =>
            obtain rfl : key = other := same
            exact absurd List.mem_cons_self (noPush items)
        | expire other => exact present
      · rw [hget_congr (command.lookup_exec_of_ne db same)]
        exact present

/-- A field written by a pipeline is there after it, unless the pipeline pushes to its key. -/
theorem isSome_hget_of_mem (db : Db) {commands : List Command} {key field : Text}
    {fields : List (Text × Text)} (member : Command.hset key fields ∈ commands)
    (written : field ∈ fields.map Prod.fst) (noPush : ∀ items, Command.rpush key items ∉ commands) :
    (hget (execAll db commands) key field).isSome := by
  obtain ⟨before, after, rfl⟩ := List.append_of_mem member
  have split : execAll db (before ++ Command.hset key fields :: after) =
      execAll (hset (execAll db before) key fields) after :=
    List.foldl_append
  rw [split]
  apply isSome_hget_execAll
  · intro items pushed
    exact noPush items (List.mem_append_right _ (List.mem_cons_of_mem _ pushed))
  · exact (isSome_hget_hset _ fields).mpr (Or.inl written)

/-- A field written by every command that writes to its hash has the value written. -/
theorem hget_execAll_of_mem (db : Db) {commands : List Command} {key field value : Text}
    {fields : List (Text × Text)} (nodup : (fields.map Prod.fst).Nodup)
    (member : (field, value) ∈ fields)
    (same : ∀ command ∈ commands, key = command.key →
      command = .hset key fields ∨ command = .expire key)
    (written : Command.hset key fields ∈ commands ∨ hget db key field = some value) :
    hget (execAll db commands) key field = some value := by
  induction commands generalizing db with
  | nil => exact written.resolve_left List.not_mem_nil
  | cons command commands ih =>
      apply ih _ fun other inRest => same other (List.mem_cons_of_mem _ inRest)
      have kept (before : hget db key field = some value) :
          hget (command.exec db) key field = some value := by
        by_cases addressed : key = command.key
        · rcases same command List.mem_cons_self addressed with rfl | rfl
          · exact (hget_hset db fields field).trans (lookup_setFields_of_mem nodup member)
          · exact before
        · rw [hget_congr (command.lookup_exec_of_ne db addressed)]
          exact before
      rcases written with isFirst | before
      · rcases List.mem_cons.mp isFirst with rfl | inRest
        · exact Or.inr ((hget_hset db fields field).trans (lookup_setFields_of_mem nodup member))
        · exact Or.inl inRest
      · exact Or.inr (kept before)

/-- A field written by no command keeps its value. -/
theorem hget_execAll_of_notMem (db : Db) {commands : List Command} {key field : Text}
    {fields : List (Text × Text)} (absent : field ∉ fields.map Prod.fst)
    (same : ∀ command ∈ commands, key = command.key →
      command = .hset key fields ∨ command = .expire key) :
    hget (execAll db commands) key field = hget db key field := by
  induction commands generalizing db with
  | nil => rfl
  | cons command commands ih =>
      refine (ih (command.exec db) fun other inRest =>
        same other (List.mem_cons_of_mem _ inRest)).trans ?_
      by_cases addressed : key = command.key
      · rcases same command List.mem_cons_self addressed with rfl | rfl
        · exact (hget_hset db fields field).trans (lookup_setFields_of_notMem absent)
        · rfl
      · exact hget_congr (command.lookup_exec_of_ne db addressed) field

theorem execAll_append (db : Db) (first second : List Command) :
    execAll db (first ++ second) = execAll (execAll db first) second :=
  List.foldl_append

/-- A pipeline never removes a key. -/
theorem mem_execAll (db : Db) (commands : List Command) {key : Text} (member : key ∈ db) :
    key ∈ execAll db commands := by
  induction commands generalizing db with
  | nil => exact member
  | cons command commands ih =>
      apply ih
      cases command with
      | hset other fields => exact (AList.mem_insert _).mpr (Or.inr member)
      | rpush other items => exact (AList.mem_insert _).mpr (Or.inr member)
      | expire other => exact member

/-- The keys present after a pipeline were present before or are addressed by it. -/
theorem mem_of_mem_execAll (db : Db) (commands : List Command) {key : Text}
    (member : key ∈ execAll db commands) :
    key ∈ db ∨ ∃ command ∈ commands, key = command.key := by
  by_contra absent
  simp only [not_or, not_exists, not_and] at absent
  have same := lookup_execAll_of_notMem db commands absent.2
  rw [← AList.lookup_isSome, same, AList.lookup_isSome] at member
  exact absent.1 member

end NestDaq.Store
