import NestDaq.Registry.Identity

/-!
# Allocation of indices

While an instance has the lock, it finds the uuids of the instances that are
present by a pattern for their presence keys. For a service whose name the pattern
takes literally, the section gives back exactly the indices of absent instances and
takes the least index that is left, so instances that start one after the other and
stay have consecutive indices.
-/

namespace NestDaq.Registry

open Store

/-- An instance with the uuid is present. -/
def Present (db : Db) (service uuid : Text) : Prop :=
  ∃ instanceId, get db (presenceKey service instanceId) = some uuid

/-- The presence keys of a service hold texts, and its index key a hash or nothing. -/
structure WellTyped (db : Db) (service : Text) : Prop where
  presence : ∀ instanceId value, db.lookup (presenceKey service instanceId) = some value →
    ∃ text, value = .string text
  index : ∀ value, db.lookup (indexKey service) = some value → ∃ fields, value = .hash fields

/-- `SCAN` finds the presence keys of a service and no other keys. -/
def Literal (service : Text) : Prop :=
  ∀ key, Glob.stringmatch (presenceKey service ['*']) key ↔
    ∃ instanceId, key = presenceKey service instanceId

theorem literal_of_plain {service : Text} (plain : Glob.Plain service) : Literal service :=
  stringmatch_presence plain

/-- An instance whose id is not given. -/
def newInstance (service uuid : Text) : Identity where
  fServiceName := service
  fUuid := uuid

/-- An index that a present instance has. -/
def Remains (db : Db) (service field : Text) : Prop :=
  ∃ owner, hget db (indexKey service) field = some owner ∧ Present db service owner

/-- The entries of absent instances are removed, and the least index left is assigned. -/
structure Allocated (service uuid : Text) (before : Db) (started : Identity) (after : Db)
    (index : Nat) :
    Prop where
  free : ¬ Remains before service (Text.decimal index)
  least : ∀ other < index, Remains before service (Text.decimal other)
  assigned : hget after (indexKey service) (Text.decimal index) = some uuid
  entries : ∀ field owner, field ≠ Text.decimal index →
    (hget after (indexKey service) field = some owner ↔
      hget before (indexKey service) field = some owner ∧ Present before service owner)
  fId : started.fId = indexedId service (Text.decimal index)
  presence : get after (presenceKey service started.fId) = some uuid
  others : ∀ key, key ≠ indexKey service → key ≠ presenceKey service started.fId →
    after.lookup key = before.lookup key

/-- Every section of a process without an entry allocates an index. -/
def Allocates (service : Text) : Prop :=
  ∀ db uuid, WellTyped db service → (∀ field, hget db (indexKey service) field ≠ some uuid) →
    ∃ self after index, (newInstance service uuid).setId db = some (self, after) ∧
      Allocated service uuid db self after index

/-- Processes of a service start one after the other; their ids. -/
def startAll (service : Text) : Db → List Text → Option (List Text × Db)
  | db, [] => some ([], db)
  | db, uuid :: rest => do
      let (self, db) ← (newInstance service uuid).setId db
      let (ids, db) ← startAll service db rest
      some (self.fId :: ids, db)

/-- From an empty registry, processes that start in any order and stay get the ids from
zero on, each once. -/
def Dense (service : Text) : Prop :=
  ∀ uuids : List Text, uuids.Nodup →
    ∃ after, startAll service ∅ uuids =
      some ((List.range uuids.length).map fun index => indexedId service (Text.decimal index),
        after)

theorem presenceKey_ne_indexKey (service instanceId : Text) :
    presenceKey service instanceId ≠ indexKey service := by
  intro same
  have counts := congrArg (List.count ':') same
  have top : List.count ':' topPrefix = 0 := by decide
  have presence : List.count ':' presencePrefix = 0 := by decide
  have serviceIndex : List.count ':' serviceInstanceIndexPrefix = 0 := by decide
  simp [presenceKey_eq, indexKey, colon, top, presence, serviceIndex] at counts

theorem indexedId_injective (service : Text) : Function.Injective (indexedId service) := by
  intro first second same
  simpa [indexedId] using same

theorem indexedId_ne_nil (service index : Text) : indexedId service index ≠ [] := by
  simp [indexedId]

theorem exists_mget {db : Db} {keys : List Text}
    (texts : ∀ key ∈ keys, ∃ text, get db key = some text) :
    ∃ values, mget db keys = some values := by
  induction keys with
  | nil => exact ⟨[], rfl⟩
  | cons key keys ih =>
      obtain ⟨text, found⟩ := texts key List.mem_cons_self
      obtain ⟨values, read⟩ := ih fun other member => texts other (List.mem_cons_of_mem _ member)
      refine ⟨text :: values, ?_⟩
      rw [mget] at read ⊢
      rw [List.mapM_cons, found, read]
      rfl

theorem exists_get_of_mget {db : Db} {keys values : List Text} (read : mget db keys = some values)
    {key : Text} (member : key ∈ keys) : ∃ text, get db key = some text := by
  induction keys generalizing values with
  | nil => exact absurd member List.not_mem_nil
  | cons first keys ih =>
      rw [mget, List.mapM_cons, Option.bind_eq_bind, Option.bind_eq_some_iff] at read
      obtain ⟨text, found, read⟩ := read
      obtain ⟨rest, readRest, -⟩ := Option.bind_eq_some_iff.mp read
      rcases List.mem_cons.mp member with rfl | inRest
      · exact ⟨text, found⟩
      · exact ih readRest inRest

theorem mem_of_mget {db : Db} {keys values : List Text} (read : mget db keys = some values)
    (text : Text) : text ∈ values ↔ ∃ key ∈ keys, get db key = some text := by
  induction keys generalizing values with
  | nil =>
      obtain rfl : [] = values := Option.some.inj read
      simp
  | cons key keys ih =>
      rw [mget, List.mapM_cons, Option.bind_eq_bind, Option.bind_eq_some_iff] at read
      obtain ⟨first, found, read⟩ := read
      obtain ⟨rest, readRest, same⟩ := Option.bind_eq_some_iff.mp read
      obtain rfl : first :: rest = values := Option.some.inj same
      simp [ih readRest, found, eq_comm]

theorem lookup_hdelAll_of_ne {db : Db} {key other : Text} (differs : other ≠ key)
    (fields : List Text) : (hdelAll db key fields).lookup other = db.lookup other := by
  induction fields generalizing db with
  | nil => rfl
  | cons field fields ih =>
      exact (@ih (hdel db key field)).trans (lookup_hdel_of_ne db differs field)

theorem hget_hdelAll {db : Db} {key : Text} (fields : List Text) (field : Text) :
    hget (hdelAll db key fields) key field =
      if field ∈ fields then none else hget db key field := by
  induction fields generalizing db with
  | nil => simp [hdelAll]
  | cons first fields ih =>
      rw [show hdelAll db key (first :: fields) = hdelAll (hdel db key first) key fields from rfl,
        ih, hget_hdel]
      by_cases inRest : field ∈ fields <;> by_cases isFirst : field = first <;>
        simp [inRest, isFirst]

theorem mem_indexExpired {hash : Hash} {uuidList : List Text} {field : Text} :
    field ∈ indexExpired hash uuidList ↔ ∃ owner, hash.lookup field = some owner ∧
      owner ∉ uuidList := by
  simp only [indexExpired, List.mem_map, List.mem_filter, decide_eq_true_eq]
  constructor
  · rintro ⟨⟨field, owner⟩, ⟨member, absent⟩, rfl⟩
    exact ⟨owner, AList.mem_lookup_iff.mpr member, absent⟩
  · rintro ⟨owner, found, absent⟩
    exact ⟨⟨field, owner⟩, ⟨AList.mem_lookup_iff.mp found, absent⟩, rfl⟩

theorem myIndex_eq_nil {hash : Hash} {myUuid : Text} (uuidList : List Text)
    (unmapped : ∀ field, hash.lookup field ≠ some myUuid) : myIndex hash uuidList myUuid = [] := by
  have skipped (entries : List (Sigma fun _ : Text => Text))
    (inside : ∀ entry ∈ entries, entry.2 ≠ myUuid)
      (found : Text) : entries.foldl (fun found entry =>
        if entry.2 ∈ uuidList ∧ entry.2 = myUuid then entry.1 else found) found = found := by
    induction entries with
    | nil => rfl
    | cons entry entries ih =>
        rw [List.foldl_cons, if_neg fun both => inside entry List.mem_cons_self both.2]
        exact ih fun other member => inside other (List.mem_cons_of_mem _ member)
  apply skipped
  rintro ⟨field, owner⟩ member rfl
  exact unmapped field (AList.mem_lookup_iff.mpr member)

/-! ## The section -/

section Section

variable {service uuid : Text} {db : Db} {uuidList : List Text}

/-- The registry after the expired indices are given back. -/
def cleaned (service : Text) (db : Db) (uuidList : List Text) : Db :=
  hdelAll db (indexKey service) (indexExpired (hgetall db (indexKey service)) uuidList)

/-- The index hash keeps the entries of the uuids that were read. -/
theorem hget_cleaned {field owner : Text} :
    hget (cleaned service db uuidList) (indexKey service) field = some owner ↔
      hget db (indexKey service) field = some owner ∧ owner ∈ uuidList := by
  rw [cleaned, hget_hdelAll]
  split_ifs with expired
  · obtain ⟨other, found, absent⟩ := mem_indexExpired.mp expired
    constructor
    · rintro ⟨⟩
    · rintro ⟨same, present⟩
      obtain rfl := Option.some.inj (found.symm.trans same)
      exact absurd present absent
  · constructor
    · intro found
      refine ⟨found, by_contra fun absent => expired ?_⟩
      exact mem_indexExpired.mpr ⟨owner, found, absent⟩
    · exact And.left

/-- What `SetId` does for a process without an id and without an entry. -/
theorem setId_newInstance (someService : service ≠ [])
    (unmapped : ∀ field, hget db (indexKey service) field ≠ some uuid)
    (read : mget db (scan db (presenceKey service ['*'])) = some uuidList)
    (typed : hgetallOrThrow db (indexKey service) = some (hgetall db (indexKey service))) :
    ∃ self, (newInstance service uuid).setId db = some (self,
        ((newInstance service uuid).allocate (cleaned service db uuidList)).2) ∧
      self.fId = ((newInstance service uuid).allocate (cleaned service db uuidList)).1.fId := by
  have none : myIndex (hgetall db (indexKey service)) uuidList uuid = [] :=
    myIndex_eq_nil uuidList unmapped
  have locked : (newInstance service uuid).lockedSection db =
      some ((newInstance service uuid).allocate (cleaned service db uuidList)) := by
    rw [Identity.lockedSection, show (newInstance service uuid).fServiceName = service from rfl,
      show (newInstance service uuid).fUuid = uuid from rfl, read, typed]
    simp only [Option.bind_eq_bind, Option.bind_some, none, if_true]
    rfl
  have stays (self : Identity) (someId : self.fId ≠ []) : self.idOrUuid = self := by
    rw [Identity.idOrUuid, if_neg someId]
  have someId := indexedId_ne_nil service (Text.decimal
    (freeIndex (hgetall (cleaned service db uuidList) (indexKey service))))
  refine ⟨((newInstance service uuid).allocate (cleaned service db uuidList)).1.publishId, ?_, rfl⟩
  have waits : (newInstance service uuid).setId db =
      ((newInstance service uuid).lockedSection db).map fun result =>
        (result.1.publishId.idOrUuid, result.2) :=
    if_pos ⟨rfl, someService⟩
  rw [waits, locked, Option.map_some, stays]
  exact someId

/-- The registry after an allocation. -/
theorem Identity.hget_allocate (self : Identity) (db : Db) (field : Text) :
    hget (self.allocate db).2 (indexKey self.fServiceName) field =
      if field = Text.decimal (freeIndex (hgetall db (indexKey self.fServiceName))) then
        some self.fUuid
      else hget db (indexKey self.fServiceName) field := by
  have free : hget db (indexKey self.fServiceName)
      (Text.decimal (freeIndex (hgetall db (indexKey self.fServiceName)))) = none :=
    AList.lookup_eq_none.mpr (freeIndex_eq_iff.mp rfl).1
  simp only [Identity.allocate, hsetnx, free]
  rw [hget_congr (lookup_set_of_ne _ (presenceKey_ne_indexKey _ _).symm _), hget_hset]
  split_ifs with isIndex
  · subst isIndex
    exact lookup_setFields_of_mem (by simp) List.mem_cons_self
  · exact lookup_setFields_of_notMem (by simpa using isIndex)

theorem hget_allocate (field : Text) :
    hget ((newInstance service uuid).allocate db).2 (indexKey service) field =
      if field = Text.decimal (freeIndex (hgetall db (indexKey service))) then some uuid
      else hget db (indexKey service) field :=
  (newInstance service uuid).hget_allocate db field

theorem lookup_allocate_of_ne {key : Text} (notIndex : key ≠ indexKey service)
    (notPresence : key ≠ presenceKey service ((newInstance service uuid).allocate db).1.fId) :
    ((newInstance service uuid).allocate db).2.lookup key = db.lookup key :=
  (lookup_set_of_ne _ notPresence _).trans (lookup_hsetnx_of_ne db notIndex _ _)

end Section

/-- With a literal service name, the section does what it has to. -/
theorem allocates_of_literal {service : Text} (someService : service ≠ [])
    (literal : Literal service) : Allocates service := by
  intro db uuid wellTyped unmapped
  obtain ⟨uuidList, read⟩ : ∃ uuidList,
      mget db (scan db (presenceKey service ['*'])) = some uuidList := by
    apply exists_mget
    intro key member
    obtain ⟨inDb, found⟩ := (mem_scan db).mp member
    obtain ⟨instanceId, rfl⟩ := (literal key).mp found
    obtain ⟨value, stored⟩ := Option.isSome_iff_exists.mp (AList.lookup_isSome.mpr inDb)
    obtain ⟨text, rfl⟩ := wellTyped.presence instanceId value stored
    exact ⟨text, (get_eq_some_iff db).mpr stored⟩
  have present (owner : Text) : owner ∈ uuidList ↔ Present db service owner := by
    rw [mem_of_mget read, Present]
    constructor
    · rintro ⟨key, member, found⟩
      obtain ⟨instanceId, rfl⟩ := (literal key).mp ((mem_scan db).mp member).2
      exact ⟨instanceId, found⟩
    · rintro ⟨instanceId, found⟩
      refine ⟨_, (mem_scan db).mpr ⟨?_, (literal _).mpr ⟨instanceId, rfl⟩⟩, found⟩
      exact AList.lookup_isSome.mp
        (Option.isSome_iff_exists.mpr ⟨_, (get_eq_some_iff db).mp found⟩)
  have typed : hgetallOrThrow db (indexKey service) = some (hgetall db (indexKey service)) := by
    cases stored : db.lookup (indexKey service) with
    | none => simp [hgetallOrThrow, hgetall, stored]
    | some value =>
        obtain ⟨fields, rfl⟩ := wellTyped.index value stored
        simp [hgetallOrThrow, hgetall, stored]
  obtain ⟨self, ended, named⟩ := setId_newInstance someService unmapped read typed
  have kept (field : Text) : Remains db service field ↔
      field ∈ hgetall (cleaned service db uuidList) (indexKey service) := by
    rw [← AList.lookup_isSome, Option.isSome_iff_exists, Remains]
    refine exists_congr fun owner => ?_
    rw [← present]
    exact hget_cleaned.symm
  obtain ⟨free, occupied⟩ := freeIndex_eq_iff.mp
    (Eq.refl (freeIndex (hgetall (cleaned service db uuidList) (indexKey service))))
  refine ⟨self, _, _, ended, ⟨fun remains => free ((kept _).mp remains),
    fun other below => (kept _).mpr (occupied other below), ?_, ?_, named, ?_, ?_⟩⟩
  · rw [hget_allocate, if_pos rfl]
  · intro field owner other
    rw [hget_allocate, if_neg other, hget_cleaned, present]
  · rw [named]
    exact get_set _ _
  · intro key notIndex notPresence
    rw [named] at notPresence
    rw [lookup_allocate_of_ne notIndex notPresence]
    exact lookup_hdelAll_of_ne notIndex _

/-! ## Names that are not taken literally -/

/-- An index hash with one field. -/
def oneField : Hash :=
  AList.singleton "x".toList "u".toList

/-- A registry with that index hash and one more key with the uuid. -/
def oneEntry (service key : Text) : Db :=
  (AList.singleton (indexKey service) (.hash oneField)).insert key (.string "u".toList)

section OneEntry

variable {service key : Text}

theorem lookup_oneEntry_self : (oneEntry service key).lookup key = some (.string "u".toList) :=
  AList.lookup_insert _

theorem lookup_oneEntry_index (differs : key ≠ indexKey service) :
    (oneEntry service key).lookup (indexKey service) =
      some (.hash oneField) := by
  rw [oneEntry, AList.lookup_insert_ne differs.symm]
  exact AList.lookup_insert (∅ : Db)

theorem mem_oneEntry {other : Text} (member : other ∈ oneEntry service key) :
    other = key ∨ other = indexKey service := by
  rw [oneEntry, AList.mem_insert] at member
  exact member.imp_right fun inSingleton => List.mem_singleton.mp (AList.mem_keys.mp inSingleton)

theorem wellTyped_oneEntry (differs : key ≠ indexKey service) :
    WellTyped (oneEntry service key) service where
  presence instanceId value stored := by
    rcases mem_oneEntry (AList.lookup_isSome.mp (Option.isSome_iff_exists.mpr ⟨value, stored⟩)) with
      same | same
    · rw [same, lookup_oneEntry_self] at stored
      exact ⟨_, (Option.some.inj stored).symm⟩
    · exact absurd same (presenceKey_ne_indexKey service instanceId)
  index value stored := by
    rw [lookup_oneEntry_index differs] at stored
    exact ⟨_, (Option.some.inj stored).symm⟩

theorem hget_oneEntry (differs : key ≠ indexKey service) (field : Text) :
    hget (oneEntry service key) (indexKey service) field = oneField.lookup field := by
  rw [hget, hgetall, lookup_oneEntry_index differs]

end OneEntry

theorem unmapped_oneEntry {service key : Text} (differs : key ≠ indexKey service) (field : Text) :
    hget (oneEntry service key) (indexKey service) field ≠ some "v".toList := by
  rw [hget_oneEntry differs]
  intro found
  have inHash := AList.mem_lookup_iff.mp found
  obtain ⟨-, same⟩ := Sigma.mk.inj (List.mem_singleton.mp inHash)
  exact absurd (eq_of_heq same) (by decide)

/-- A section that returns has read all it scanned. -/
theorem exists_mget_of_setId {service uuid : Text} {db : Db} {result : Identity × Db}
    (someService : service ≠ []) (ended : (newInstance service uuid).setId db = some result) :
    ∃ uuidList, mget db (scan db (presenceKey service ['*'])) = some uuidList := by
  have waits : (newInstance service uuid).setId db =
      ((newInstance service uuid).lockedSection db).map fun result =>
        (result.1.publishId.idOrUuid, result.2) :=
    if_pos ⟨rfl, someService⟩
  rw [waits, Option.map_eq_some_iff] at ended
  obtain ⟨middle, locked, -⟩ := ended
  obtain ⟨uuidList, read, -⟩ := Option.bind_eq_some_iff.mp locked
  exact ⟨uuidList, read⟩

/-- Only a literal name lets every section do what it has to. -/
theorem literal_of_allocates {service : Text} (someService : service ≠ [])
    (allocates : Allocates service) : Literal service := by
  intro key
  by_cases isIndex : key = indexKey service
  · subst isIndex
    constructor
    · intro found
      have differs := presenceKey_ne_indexKey service []
      obtain ⟨self, after, index, ended, -⟩ := allocates (oneEntry service (presenceKey service []))
        "v".toList (wellTyped_oneEntry differs) (unmapped_oneEntry differs)
      obtain ⟨uuidList, read⟩ := exists_mget_of_setId someService ended
      have stored := lookup_oneEntry_index differs
      have inDb : indexKey service ∈ oneEntry service (presenceKey service []) :=
        AList.lookup_isSome.mp (Option.isSome_iff_exists.mpr ⟨_, stored⟩)
      obtain ⟨text, isText⟩ := exists_get_of_mget read ((mem_scan _).mpr ⟨inDb, found⟩)
      rw [get_eq_some_iff, stored] at isText
      cases isText
    · rintro ⟨instanceId, same⟩
      exact absurd same.symm (presenceKey_ne_indexKey service instanceId)
  · have wellTyped := wellTyped_oneEntry isIndex
    have inDb : key ∈ oneEntry service key :=
      AList.lookup_isSome.mp (Option.isSome_iff_exists.mpr ⟨_, lookup_oneEntry_self⟩)
    have isText : get (oneEntry service key) key = some "u".toList :=
      (get_eq_some_iff _).mpr lookup_oneEntry_self
    have onlyText {other : Text} (found : get (oneEntry service key) other = some "u".toList) :
        other = key := by
      have stored := (get_eq_some_iff _).mp found
      rcases mem_oneEntry (AList.lookup_isSome.mp (Option.isSome_iff_exists.mpr ⟨_, stored⟩)) with
        same | rfl
      · exact same
      · rw [lookup_oneEntry_index isIndex] at stored
        cases stored
    obtain ⟨self, after, index, ended, allocated⟩ := allocates (oneEntry service key) "v".toList
      wellTyped (unmapped_oneEntry isIndex)
    obtain ⟨uuidList, read⟩ := exists_mget_of_setId someService ended
    have typed : hgetallOrThrow (oneEntry service key) (indexKey service) =
        some (hgetall (oneEntry service key) (indexKey service)) := by
      rw [hgetallOrThrow, hgetall, lookup_oneEntry_index isIndex]
    obtain ⟨other, otherEnded, -⟩ := setId_newInstance someService (unmapped_oneEntry isIndex)
      read typed
    obtain ⟨rfl, rfl⟩ := Prod.mk.inj (Option.some.inj (ended.symm.trans otherEnded))
    have notIndex : ∀ n, "x".toList ≠ Text.decimal n := by
      intro n same
      have digit := Text.isDigit_of_mem_decimal (same ▸ List.mem_cons_self : 'x' ∈ Text.decimal n)
      exact absurd digit (by decide)
    have entry := allocated.entries "x".toList "u".toList (notIndex index)
    have stored : hget (oneEntry service key) (indexKey service) "x".toList = some "u".toList := by
      rw [hget_oneEntry isIndex]
      rfl
    rw [hget_allocate, if_neg (notIndex _), hget_cleaned, and_iff_right stored,
      and_iff_right stored, mem_of_mget read] at entry
    constructor
    · intro found
      obtain ⟨instanceId, present⟩ := entry.mp ⟨key, (mem_scan _).mpr ⟨inDb, found⟩, isText⟩
      exact ⟨instanceId, (onlyText present).symm⟩
    · rintro ⟨instanceId, rfl⟩
      obtain ⟨other, member, found⟩ := entry.mpr ⟨instanceId, isText⟩
      obtain rfl := onlyText found
      exact ((mem_scan _).mp member).2

/-! ## Dense indices -/

/-- The instances that have started hold the indices below their number. -/
structure Holds (service : Text) (uuids : List Text) (db : Db) : Prop where
  wellTyped : WellTyped db service
  entries : ∀ field owner, hget db (indexKey service) field = some owner ↔
    ∃ index, uuids[index]? = some owner ∧ field = Text.decimal index
  presence : ∀ index owner, uuids[index]? = some owner →
    get db (presenceKey service (indexedId service (Text.decimal index))) = some owner

theorem holds_nil (service : Text) : Holds service [] ∅ where
  wellTyped := ⟨fun _ _ none => (nomatch none), fun _ none => (nomatch none)⟩
  entries field owner := by simp [hget, hgetall]
  presence index owner found := by simp at found

/-- One more instance gets the next index. -/
theorem Holds.start {service uuid : Text} {uuids : List Text} {db : Db}
    (holds : Holds service uuids db) (allocates : Allocates service) (fresh : uuid ∉ uuids) :
    ∃ started after, (newInstance service uuid).setId db = some (started, after) ∧
      started.fId = indexedId service (Text.decimal uuids.length) ∧
      Holds service (uuids ++ [uuid]) after := by
  have unmapped : ∀ field, hget db (indexKey service) field ≠ some uuid := by
    intro field found
    obtain ⟨index, atIndex, -⟩ := (holds.entries field uuid).mp found
    exact fresh (List.mem_of_getElem? atIndex)
  obtain ⟨started, after, index, ended, allocated⟩ := allocates db uuid holds.wellTyped unmapped
  have remains (other : Nat) : Remains db service (Text.decimal other) ↔ other < uuids.length := by
    constructor
    · rintro ⟨owner, found, -⟩
      obtain ⟨same, atSame, digits⟩ := (holds.entries _ owner).mp found
      obtain rfl := Text.decimal_injective digits
      exact (List.getElem?_eq_some_iff.mp atSame).1
    · intro below
      have atOther := List.getElem?_eq_getElem below
      exact ⟨_, (holds.entries _ _).mpr ⟨other, atOther, rfl⟩,
        _, holds.presence other _ atOther⟩
  have next : index = uuids.length := by
    rcases Nat.lt_trichotomy index uuids.length with less | same | more
    · exact absurd ((remains index).mpr less) allocated.free
    · exact same
    · exact absurd ((remains _).mp (allocated.least _ more)) (Nat.lt_irrefl _)
  subst next
  refine ⟨started, after, ended, allocated.fId, ?_⟩
  have isPresent {field owner : Text} (found : hget db (indexKey service) field = some owner) :
      Present db service owner := by
    obtain ⟨other, atOther, -⟩ := (holds.entries field owner).mp found
    exact ⟨_, holds.presence other owner atOther⟩
  have atEnd (other : Nat) (owner : Text) : (uuids ++ [uuid])[other]? = some owner ↔
      uuids[other]? = some owner ∨ other = uuids.length ∧ owner = uuid := by
    rcases Nat.lt_trichotomy other uuids.length with less | rfl | more
    · rw [List.getElem?_append_left less]
      exact ⟨Or.inl, fun either => either.resolve_right fun both => absurd both.1 less.ne⟩
    · simp [eq_comm]
    · rw [List.getElem?_eq_none (by simpa using Nat.succ_le_of_lt more),
        List.getElem?_eq_none more.le]
      simp [more.ne']
  constructor
  · constructor
    · intro instanceId value stored
      by_cases own : presenceKey service instanceId = presenceKey service started.fId
      · rw [own, (get_eq_some_iff _).mp allocated.presence] at stored
        exact ⟨uuid, (Option.some.inj stored).symm⟩
      · rw [allocated.others _ (presenceKey_ne_indexKey service instanceId) own] at stored
        exact holds.wellTyped.presence instanceId value stored
    · intro value stored
      have assigned := allocated.assigned
      cases value with
      | hash fields => exact ⟨fields, rfl⟩
      | string text => simp [hget, hgetall, stored] at assigned
      | list items => simp [hget, hgetall, stored] at assigned
  · intro field owner
    simp only [atEnd, or_and_right, exists_or]
    by_cases own : field = Text.decimal uuids.length
    · subst own
      rw [allocated.assigned]
      constructor
      · intro same
        exact Or.inr ⟨_, ⟨rfl, (Option.some.inj same).symm⟩, rfl⟩
      · rintro (⟨other, atOther, digits⟩ | ⟨-, ⟨-, rfl⟩, -⟩)
        · obtain rfl := Text.decimal_injective digits
          simp at atOther
        · rfl
    · rw [allocated.entries field owner own, ← holds.entries]
      constructor
      · exact fun both => Or.inl both.1
      · rintro (found | ⟨other, ⟨rfl, -⟩, digits⟩)
        · exact ⟨found, isPresent found⟩
        · exact absurd digits own
  · intro other owner found
    rcases (atEnd other owner).mp found with before | ⟨rfl, rfl⟩
    · have differs : indexedId service (Text.decimal other) ≠ started.fId := by
        rw [allocated.fId]
        intro same
        obtain rfl := Text.decimal_injective (indexedId_injective service same)
        simp at before
      rw [get_congr (allocated.others _ (presenceKey_ne_indexKey service _)
        fun same => differs (presenceKey_right_injective service same))]
      exact holds.presence other owner before
    · rw [← allocated.fId]
      exact allocated.presence

/-- Instances that start after others get the indices that follow. -/
theorem Holds.startAll {service : Text} {uuids rest : List Text} {db : Db}
    (holds : Holds service uuids db) (allocates : Allocates service)
    (nodup : (uuids ++ rest).Nodup) :
    ∃ after, Registry.startAll service db rest =
      some ((List.range rest.length).map fun index =>
        indexedId service (Text.decimal (uuids.length + index)), after) := by
  induction rest generalizing uuids db with
  | nil => exact ⟨db, rfl⟩
  | cons uuid rest ih =>
      have fresh : uuid ∉ uuids := fun member =>
        (List.nodup_append.mp nodup).2.2 uuid member uuid List.mem_cons_self rfl
      obtain ⟨started, middle, ended, named, holds⟩ := holds.start allocates fresh
      obtain ⟨after, rest⟩ := ih holds (by simpa using nodup)
      refine ⟨after, ?_⟩
      rw [Registry.startAll, ended]
      simp only [Option.bind_eq_bind, Option.bind_some, rest, named, List.length_cons,
        List.range_succ_eq_map, List.map_cons, List.map_map, Nat.add_zero]
      simp [Function.comp_def, Nat.add_assoc, Nat.add_comm 1]

/-- `SetId` gives back the indices of absent instances only, takes the least index left,
and numbers instances that stay without gaps, if and only if the service name is taken
literally in the pattern for the presence keys. -/
theorem allocates_and_dense_iff {service : Text} (someService : service ≠ []) :
    Allocates service ∧ Dense service ↔ Literal service := by
  constructor
  · exact fun both => literal_of_allocates someService both.1
  · intro literal
    have allocates := allocates_of_literal someService literal
    refine ⟨allocates, fun uuids nodup => ?_⟩
    obtain ⟨after, started⟩ :=
      @Holds.startAll service [] uuids ∅ (holds_nil service) allocates nodup
    refine ⟨after, started.trans ?_⟩
    simp

/-- The name of a sampler is taken literally. -/
theorem sampler_allocates_and_dense : Allocates "Sampler".toList ∧ Dense "Sampler".toList :=
  (allocates_and_dense_iff (by decide)).mpr (literal_of_plain (by decide))

/-- The pattern for a name with a bracket does not find the presence of the first
instance, and the second gets the same id. -/
theorem bracket_not_dense : ¬ (Allocates "a[b".toList ∧ Dense "a[b".toList) := by
  rintro ⟨-, dense⟩
  obtain ⟨after, started⟩ := dense ["u".toList, "v".toList] (by decide)
  have ids : (startAll "a[b".toList ∅ ["u".toList, "v".toList]).map Prod.fst =
      some ["a[b-0".toList, "a[b-0".toList] := by decide +kernel
  rw [started] at ids
  have same : (List.range 2).map (fun index => indexedId "a[b".toList (Text.decimal index)) =
      ["a[b-0".toList, "a[b-0".toList] := Option.some.inj ids
  revert same
  decide +kernel

end NestDaq.Registry
