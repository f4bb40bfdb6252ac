import Mathlib.Data.Fintype.Basic
import NestDaq.Controller.Expiry
import NestDaq.Transition.Run

/-!
# Indices of processes that start and stop at any time

`SetId` takes an index under a lock, command by command. `Unregister` deletes the presence
of a process and then its index, and the controller deletes the index of a process whose
presence has expired; neither has the lock. By the time they delete an index it may have
been given to another process.
-/

namespace NestDaq.Controller

open NestDaq.Registry
open NestDaq.Store
open NestDaq.Transition

/-- Processes with their services and their uuids. -/
structure Processes (ι : Type) where
  service : ι → Text
  uuid : ι → Text
  uuid_injective : Function.Injective uuid
  part : ∀ i, Part (service i)

/-- Where a process is in `SetId` and after it, with what it has read. -/
inductive Place
  /-- It has not got the lock. -/
  | outside
  | locked
  | scanned (presenceKeys : List Text)
  | read (uuidList : List Text)
  | listed (uuidList : List Text) (hashIndexToUuid : Hash)
  /-- The next index for `HSETNX`. -/
  | trying (index : Nat)
  /-- It has the index, and its presence is not written. -/
  | taken (index : Nat)
  | running (index : Nat)
  /-- It has found an index of its own and takes none. -/
  | reusing
  /-- `Unregister` has deleted its presence. -/
  | leaving (index : Nat)
  /-- It has unregistered or crashed. -/
  | gone

/-- The place is one in the locked section. -/
def Place.InSection : Place → Prop
  | locked | scanned _ | read _ | listed _ _ | trying _ | taken _ => True
  | _ => False

/-- The index that the process has. -/
def Place.held : Place → Option Nat
  | taken index | running index => some index
  | _ => none

/-- The process has an id with the index. -/
def Place.Holds (place : Place) (index : Nat) : Prop :=
  place = taken index ∨ place = running index

/-- The registry, the processes, the holder of the lock, and the events that the
controller has still to handle. -/
structure Registrations (ι : Type) where
  db : Db
  place : ι → Place
  lock : Option ι
  events : List Text

inductive RegistryAction (ι : Type)
  /-- The next command of `SetId`. -/
  | setId (i : ι)
  /-- The next command of `Unregister`. -/
  | unregister (i : ι)
  | crash (i : ι)
  /-- The presence of a process that is gone expires. -/
  | expire (i : ι) (index : Nat)
  /-- The controller handles an event. -/
  | handle (key : Text)

namespace Processes

variable {ι : Type} (processes : Processes ι)

/-- The hash of the indices of the service of a process. -/
def hashKey (i : ι) : Text :=
  indexKey (processes.service i)

/-- The id of a process with an index. -/
def fId (i : ι) (index : Nat) : Text :=
  indexedId (processes.service i) (Text.decimal index)

/-- The presence of a process with an index. -/
def presence (i : ι) (index : Nat) : Text :=
  presenceKey (processes.service i) (processes.fId i index)

/-- Processes of a service have different ids, and the hash maps the index of each to its
uuid. -/
structure UniqueIds (system : Registrations ι) : Prop where
  distinct : ∀ i j first second, i ≠ j → processes.service i = processes.service j →
    (system.place i).Holds first → (system.place j).Holds second →
      processes.fId i first ≠ processes.fId j second
  mapped : ∀ i index, (system.place i).Holds index →
    hget system.db (processes.hashKey i) (Text.decimal index) = some (processes.uuid i)

/-- An index that `Unregister` or the controller deletes has not been given to another
process in the meantime. -/
def NotGivenAgain (system : Registrations ι) : RegistryAction ι → Prop
  | .unregister i => ∀ index, system.place i = .leaving index →
      ∀ j, (system.place j).Holds index → processes.service j ≠ processes.service i
  | .handle key => key ∈ system.events →
      ∀ j index, (system.place j).Holds index → '-' ∉ processes.service j →
        key ≠ processes.presence j index
  | _ => True

section Keys

variable {processes} {system : Registrations ι} {i j : ι} {index other : Nat}

theorem presence_ne_hashKey (i j : ι) (index : Nat) :
    processes.hashKey j ≠ processes.presence i index := by
  intro same
  have counts := congrArg (List.count ':') same
  have top : List.count ':' topPrefix = 0 := by decide
  have presence : List.count ':' presencePrefix = 0 := by decide
  have serviceIndex : List.count ':' serviceInstanceIndexPrefix = 0 := by decide
  have service : List.count ':' (processes.service j) = 0 :=
    List.count_eq_zero_of_not_mem (processes.part j)
  simp [hashKey, Processes.presence, presenceKey_eq, indexKey, colon, top, presence, serviceIndex,
    service] at counts
  omega

theorem hashKey_injective (same : processes.hashKey i = processes.hashKey j) :
    processes.service i = processes.service j := by
  simpa [hashKey, indexKey, colon] using same

/-- The presence key tells the service and the index. -/
theorem presence_injective (same : processes.presence i index = processes.presence j other) :
    processes.service i = processes.service j ∧ index = other := by
  simp only [presence, presenceKey_eq, List.append_cancel_left_eq, List.cons.injEq, true_and]
    at same
  rcases Text.append_separator_inj (processes.part i) (processes.part j) same with
    ⟨sameService, rest⟩
  have ids : processes.fId i index = processes.fId j other := List.append_cancel_right rest
  rw [fId, fId, sameService] at ids
  exact ⟨sameService, Text.decimal_injective (indexedId_injective _ ids)⟩

/-- The ids are different where the hash maps the indices to the uuids. -/
theorem uniqueIds_iff : processes.UniqueIds system ↔
    ∀ i index, (system.place i).Holds index →
      hget system.db (processes.hashKey i) (Text.decimal index) = some (processes.uuid i) := by
  constructor
  · exact UniqueIds.mapped
  · intro mapped
    constructor
    · intro i j first second differs sameService holds otherHolds same
      rw [fId, fId, sameService] at same
      have sameIndex := Text.decimal_injective (indexedId_injective _ same)
      have uuid := mapped i first holds
      rw [hashKey, sameService, sameIndex] at uuid
      exact differs (processes.uuid_injective
        (Option.some.inj (uuid.symm.trans (mapped j second otherHolds))))
    · exact mapped

/-- Two processes of a service do not hold one index. -/
theorem UniqueIds.eq_of_holds (unique : processes.UniqueIds system)
    (sameService : processes.service i = processes.service j)
    (holds : (system.place i).Holds index) (otherHolds : (system.place j).Holds index) : i = j := by
  by_contra differs
  apply unique.distinct i j index index differs sameService holds otherHolds
  rw [fId, fId, sameService]

/-- The hash keeps what the holders have in it. -/
theorem UniqueIds.kept (unique : processes.UniqueIds system)
    (holds : ∀ j index, (next.place j).Holds index → (system.place j).Holds index)
    (hash : ∀ j index, (system.place j).Holds index →
      hget next.db (processes.hashKey j) (Text.decimal index) =
        hget system.db (processes.hashKey j) (Text.decimal index)) : processes.UniqueIds next :=
  uniqueIds_iff.mpr fun j index held =>
    (hash j index (holds j index held)).trans (unique.mapped j index (holds j index held))

theorem lookup_del_presence (i : ι) (index : Nat) (j : ι) :
    (del system.db [processes.presence i index]).lookup (processes.hashKey j) =
      system.db.lookup (processes.hashKey j) := by
  rw [lookup_del, if_neg]
  rw [List.mem_singleton]
  exact presence_ne_hashKey i j index

/-- A field of a hash of indices is deleted: the holders keep theirs exactly if it is the
field of none of them. -/
theorem uniqueIds_hdel_iff (unique : processes.UniqueIds system)
    (holds : ∀ j index, (next.place j).Holds index ↔ (system.place j).Holds index) {service : Text}
    {field : Text} (deleted : next.db = hdel system.db (indexKey service) field) :
    processes.UniqueIds next ↔
      ∀ j index, (system.place j).Holds index →
        ¬ (processes.service j = service ∧ Text.decimal index = field) := by
  rw [uniqueIds_iff]
  constructor
  · rintro mapped j index held ⟨rfl, rfl⟩
    have found := mapped j index ((holds j index).mpr held)
    rw [deleted, hashKey, hget_hdel, if_pos rfl] at found
    cases found
  · intro apart j index held
    rw [holds] at held
    rw [← unique.mapped j index held, deleted]
    by_cases sameKey : processes.service j = service
    · subst sameKey
      rw [hashKey, hget_hdel, if_neg fun same => apart j index held ⟨rfl, same⟩]
    · apply hget_congr
      apply lookup_hdel_of_ne
      intro same
      apply sameKey
      simpa [hashKey, indexKey, colon] using same

end Keys

variable [DecidableEq ι]

/-- A process comes to a place. -/
def moved (system : Registrations ι) (i : ι) (place : Place) : Registrations ι :=
  { system with place := Function.update system.place i place }

/-- A process leaves the section. -/
def unlocked (system : Registrations ι) (i : ι) (place : Place) : Registrations ι :=
  { moved system i place with lock := none }

/-- One command of `SetId`; a command that throws unlocks and tries again. -/
def setIdStep (system : Registrations ι) (i : ι) : Option (Registrations ι) :=
  match system.place i with
  | .outside =>
      if system.lock = none then some { moved system i .locked with lock := some i } else none
  | .locked =>
      some (moved system i (.scanned (scan system.db (presenceKey (processes.service i) ['*']))))
  | .scanned presenceKeys =>
      match mget system.db presenceKeys with
      | none => some (unlocked system i .outside)
      | some uuidList => some (moved system i (.read uuidList))
  | .read uuidList =>
      match hgetallOrThrow system.db (processes.hashKey i) with
      | none => some (unlocked system i .outside)
      | some hashIndexToUuid => some (moved system i (.listed uuidList hashIndexToUuid))
  | .listed uuidList hashIndexToUuid =>
      let next :=
        if myIndex hashIndexToUuid uuidList (processes.uuid i) = [] then moved system i (.trying 0)
        else unlocked system i .reusing
      some { next with
        db := hdelAll system.db (processes.hashKey i) (indexExpired hashIndexToUuid uuidList) }
  | .trying index =>
      let (db, isNew) :=
        hsetnx system.db (processes.hashKey i) (Text.decimal index) (processes.uuid i)
      some { moved system i (if isNew then .taken index else .trying (index + 1)) with db := db }
  | .taken index =>
      some { unlocked system i (.running index) with
        db := set system.db (processes.presence i index) (processes.uuid i) }
  | _ => none

/-- One command of `Unregister`. -/
def unregisterStep (system : Registrations ι) (i : ι) : Option (Registrations ι) :=
  match system.place i with
  | .running index =>
      some { moved system i (.leaving index) with
        db := del system.db [processes.presence i index] }
  | .leaving index =>
      some { moved system i .gone with
        db := hdel system.db (processes.hashKey i) (Text.decimal index) }
  | _ => none

/-- One command of a process or of the controller, a crash or an expiry. -/
def registryStep : Step (Registrations ι) (RegistryAction ι)
  | system, .setId i => processes.setIdStep system i
  | system, .unregister i => processes.unregisterStep system i
  | system, .crash i =>
      some { moved system i .gone with
        lock := if system.lock = some i then none else system.lock }
  | system, .expire i index =>
      match system.place i with
      | .gone =>
          if get system.db (processes.presence i index) = some (processes.uuid i) then
            some { system with
              db := del system.db [processes.presence i index]
              events := system.events ++ [processes.presence i index] }
          else none
      | _ => none
  | system, .handle key =>
      if key ∈ system.events then
        some { system with
          db := (processExpiredKey key system.db).getD system.db
          events := system.events.erase key }
      else none

variable {processes} {system next : Registrations ι} {i j : ι} {index other : Nat}

theorem place_moved (system : Registrations ι) (i : ι) (place : Place) :
    (moved system i place).place i = place :=
  Function.update_self ..

theorem place_moved_of_ne (differs : j ≠ i) (place : Place) :
    (moved system i place).place j = system.place j :=
  Function.update_of_ne differs ..

/-- A process that comes to a place without an index lets the others hold theirs. -/
theorem holds_moved {place : Place} (none : ∀ index, ¬ place.Holds index)
    (holds : ((moved system i place).place j).Holds index) : (system.place j).Holds index := by
  by_cases same : j = i
  · subst same
    rw [place_moved] at holds
    exact absurd holds (none index)
  · rwa [place_moved_of_ne same] at holds

theorem holds_iff {place : Place} : place.Holds index ↔ place.held = some index := by
  cases place <;> simp [Place.Holds, Place.held]

/-- What a process in the section has read of a running process of its service. -/
def Sees (processes : Processes ι) (place : Place) (j : ι) (index : Nat) : Prop :=
  match place with
  | .scanned presenceKeys => processes.presence j index ∈ presenceKeys
  | .read uuidList => processes.uuid j ∈ uuidList
  | .listed uuidList hashIndexToUuid =>
      processes.uuid j ∈ uuidList ∧
        hashIndexToUuid.lookup (Text.decimal index) = some (processes.uuid j)
  | _ => True

/-- The invariant of the registrations. -/
structure RegistryInvariant (processes : Processes ι) (system : Registrations ι) : Prop where
  lock : ∀ i, (system.place i).InSection → system.lock = some i
  presence : ∀ i index, system.place i = .running index →
    get system.db (processes.presence i index) = some (processes.uuid i)
  sees : ∀ i j index, system.place j = .running index →
    processes.service j = processes.service i → processes.Sees (system.place i) j index
  events : ∀ key ∈ system.events, ∃ i index, key = processes.presence i index

/-- What a command of `SetId` does: it goes on to another place without an index and keeps
the registry, it gives back indices, it takes an index, or it writes the presence. -/
theorem setIdStep_cases (stepped : processes.setIdStep system i = some next) :
    (∃ place, (∀ index, ¬ place.Holds index) ∧ next.db = system.db ∧
        next.place = Function.update system.place i place) ∨
      (∃ uuidList hash place, system.place i = .listed uuidList hash ∧
        (∀ index, ¬ place.Holds index) ∧
        next.db = hdelAll system.db (processes.hashKey i) (indexExpired hash uuidList) ∧
        next.place = Function.update system.place i place) ∨
      (∃ index, hget system.db (processes.hashKey i) (Text.decimal index) = none ∧
        next.db = hset system.db (processes.hashKey i) [(Text.decimal index, processes.uuid i)] ∧
        next.place = Function.update system.place i (.taken index)) ∨
      ∃ index, system.place i = .taken index ∧
        next.db = set system.db (processes.presence i index) (processes.uuid i) ∧
        next.place = Function.update system.place i (.running index) := by
  have free {place : Place} (noIndex : ∀ index, place ≠ .taken index ∧ place ≠ .running index)
      (index : Nat) : ¬ place.Holds index := by
    rintro (taken | running)
    · exact (noIndex index).1 taken
    · exact (noIndex index).2 running
  unfold setIdStep at stepped
  split at stepped
  · split_ifs at stepped
    cases stepped
    exact Or.inl ⟨_, free (by simp), rfl, rfl⟩
  · cases stepped
    exact Or.inl ⟨_, free (by simp), rfl, rfl⟩
  · split at stepped
    · cases stepped
      exact Or.inl ⟨_, free (by simp), rfl, rfl⟩
    · cases stepped
      exact Or.inl ⟨_, free (by simp), rfl, rfl⟩
  · split at stepped
    · cases stepped
      exact Or.inl ⟨_, free (by simp), rfl, rfl⟩
    · cases stepped
      exact Or.inl ⟨_, free (by simp), rfl, rfl⟩
  · rename_i uuidList hash isListed
    cases stepped
    refine Or.inr (Or.inl ⟨uuidList, hash, if myIndex hash uuidList (processes.uuid i) = [] then
      .trying 0 else .reusing, isListed, ?_, rfl, ?_⟩)
    · split_ifs
      · exact free (by simp)
      · exact free (by simp)
    · split_ifs <;> rfl
  · rename_i index _
    cases found : hget system.db (processes.hashKey i) (Text.decimal index) with
    | some owner =>
        simp only [hsetnx, found] at stepped
        cases stepped
        exact Or.inl ⟨_, free (by simp), rfl, rfl⟩
    | none =>
        simp only [hsetnx, found] at stepped
        cases stepped
        exact Or.inr (Or.inr (Or.inl ⟨index, found, rfl, rfl⟩))
  · rename_i index isTaken
    cases stepped
    exact Or.inr (Or.inr (Or.inr ⟨index, isTaken, rfl, rfl⟩))
  · cases stepped

/-! ## What the holders keep -/

variable {action : RegistryAction ι}

/-- Where one process has come to a place without an index, the others hold theirs. -/
theorem holds_of_update {place : Place} (none : ∀ index, ¬ place.Holds index)
    (places : next.place = Function.update system.place i place)
    (holds : (next.place j).Holds index) : (system.place j).Holds index := by
  rw [places] at holds
  exact holds_moved none holds

theorem not_holds_of_running {place : Place} (notTaken : ∀ index, place ≠ .taken index)
    (notRunning : ∀ index, place ≠ .running index) (index : Nat) : ¬ place.Holds index :=
  fun holds => holds.elim (notTaken index) (notRunning index)

omit [DecidableEq ι] in
/-- A process in the section that has not taken an index is not the holder of one. -/
theorem running_of_holds (invariant : RegistryInvariant processes system)
    (inSection : (system.place i).InSection) (notTaken : ∀ index, system.place i ≠ .taken index)
    (holds : (system.place j).Holds index) : system.place j = .running index := by
  rcases holds with taken | running
  · have owns := invariant.lock j (taken ▸ trivial)
    cases (invariant.lock i inSection).symm.trans owns
    exact absurd taken (notTaken index)
  · exact running

/-- `SetId` keeps the indices of the others. -/
theorem uniqueIds_setIdStep (invariant : RegistryInvariant processes system)
    (unique : processes.UniqueIds system) (stepped : processes.setIdStep system i = some next) :
    processes.UniqueIds next := by
  rcases setIdStep_cases stepped with ⟨place, none, db, places⟩ |
    ⟨uuidList, hash, place, isListed, none, db, places⟩ | ⟨index, free, db, places⟩ |
    ⟨index, isTaken, db, places⟩
  · apply unique.kept
    · exact fun j index => holds_of_update none places
    · intro j index _
      rw [db]
  · apply unique.kept
    · exact fun j index => holds_of_update none places
    · intro j index holds
      have inSection : (system.place i).InSection := by
        rw [isListed]
        trivial
      have running := running_of_holds invariant inSection
        (fun other taken => nomatch isListed.symm.trans taken) holds
      rw [db]
      by_cases sameService : processes.service j = processes.service i
      · have seen := invariant.sees i j index running sameService
        rw [isListed] at seen
        rw [hashKey, hashKey, sameService, hget_hdelAll, if_neg]
        intro expired
        rcases mem_indexExpired.mp expired with ⟨owner, found, absent⟩
        cases seen.2.symm.trans found
        exact absent seen.1
      · apply hget_congr
        apply lookup_hdelAll_of_ne
        exact fun same => sameService (hashKey_injective same)
  · rw [uniqueIds_iff]
    intro j other holds
    rw [db]
    by_cases isOwn : j = i
    · subst isOwn
      rw [places, Function.update_self] at holds
      rcases holds with taken | running
      · cases taken
        rw [hget_hset]
        exact lookup_setFields_of_mem (by simp) List.mem_cons_self
      · cases running
    · rw [places, Function.update_of_ne isOwn] at holds
      have mapped := unique.mapped j other holds
      by_cases sameService : processes.service j = processes.service i
      · rw [hashKey, sameService] at mapped
        have differs : Text.decimal other ≠ Text.decimal index := by
          intro same
          rw [same, ← hashKey, free] at mapped
          cases mapped
        rw [hashKey, hashKey, sameService, hget_hset,
          lookup_setFields_of_notMem (by simpa using differs)]
        exact mapped
      · rw [← mapped]
        apply hget_congr
        apply lookup_hset_of_ne
        exact fun same => sameService (hashKey_injective same)
  · apply unique.kept
    · intro j other holds
      rw [places] at holds
      by_cases isOwn : j = i
      · subst isOwn
        rw [Function.update_self] at holds
        rcases holds with taken | running
        · cases taken
        · cases running
          exact Or.inl isTaken
      · rwa [Function.update_of_ne isOwn] at holds
    · intro j other _
      rw [db]
      apply hget_congr
      apply lookup_set_of_ne
      exact presence_ne_hashKey i j index

/-- `Unregister` takes an index from another process exactly if it has been given again. -/
theorem uniqueIds_unregisterStep_iff (unique : processes.UniqueIds system)
    (stepped : processes.unregisterStep system i = some next) :
    processes.UniqueIds next ↔ processes.NotGivenAgain system (.unregister i) := by
  unfold unregisterStep at stepped
  split at stepped
  · rename_i index isRunning
    cases stepped
    apply iff_of_true
    · apply unique.kept
      · intro j other
        exact holds_moved (not_holds_of_running (by simp) (by simp))
      · intro j other _
        exact hget_congr (lookup_del_presence i index j) _
    · intro other isLeaving
      cases isRunning.symm.trans isLeaving
  · rename_i index isLeaving
    rcases Option.some.inj stepped with rfl
    have holds (j : ι) (other : Nat) : ((moved system i .gone).place j).Holds other ↔
        (system.place j).Holds other := by
      constructor
      · exact holds_moved (not_holds_of_running (by simp) (by simp))
      · intro held
        rw [place_moved_of_ne]
        · exact held
        · rintro rfl
          rw [isLeaving] at held
          rcases held with taken | running
          · cases taken
          · cases running
    refine Iff.trans (@uniqueIds_hdel_iff ι processes system
      { moved system i .gone with
        db := hdel system.db (processes.hashKey i) (Text.decimal index) } unique holds
          (processes.service i) (Text.decimal index) rfl) ?_
    constructor
    · intro apart other isOther j held sameService
      cases isLeaving.symm.trans isOther
      exact apart j index held ⟨sameService, rfl⟩
    · rintro again j other held ⟨sameService, sameIndex⟩
      rw [Text.decimal_injective sameIndex] at held
      exact again index isLeaving j held sameService
  · cases stepped

omit [DecidableEq ι] in
/-- What the controller deletes when the presence of a process expires. -/
theorem processExpiredKey_presence (i : ι) (index : Nat) (db : Db) :
    processExpiredKey (processes.presence i index) db =
      some (hdel db (indexKey (processes.service i)) (Text.substrFrom (processes.fId i index)
        (Text.after (Text.find (processes.fId i index) ['-'])))) :=
  processExpiredKey_presenceKey (processes.part i) (part_indexedId (processes.part i) index) db

omit [DecidableEq ι] in
/-- The controller takes an index from a process exactly if the service has no hyphen and
the presence that has expired was for that index. -/
theorem uniqueIds_handle_iff (unique : processes.UniqueIds system)
    (isEvent : processes.presence i index ∈ system.events) (places : next.place = system.place)
    (handled : next.db =
      (processExpiredKey (processes.presence i index) system.db).getD system.db) :
    processes.UniqueIds next ↔
      processes.NotGivenAgain system (.handle (processes.presence i index)) := by
  rw [processExpiredKey_presence, Option.getD_some] at handled
  refine Iff.trans (uniqueIds_hdel_iff unique (fun j other => by rw [places]) handled) ?_
  constructor
  · intro apart _ j other held noHyphen same
    rcases presence_injective same with ⟨sameService, rfl⟩
    apply apart j index held
    rw [fId, sameService, substrFrom_find_indexedId (sameService ▸ noHyphen)]
    exact ⟨rfl, rfl⟩
  · rintro again j other held ⟨sameService, isField⟩
    by_cases hyphen : '-' ∈ processes.service j
    · rcases List.eq_append_cons_of_mem hyphen with ⟨front, back, split, noHyphen⟩
      rw [fId, ← sameService, split, substrFrom_find_hyphen noHyphen] at isField
      have inField : '-' ∈ Text.decimal other := by
        rw [isField, indexedId]
        simp
      exact absurd (Text.isDigit_of_mem_decimal inField) (by decide)
    · rw [fId, ← sameService, substrFrom_find_indexedId hyphen] at isField
      apply again isEvent j other held hyphen
      rw [Text.decimal_injective isField, presence, presence, fId, fId, sameService]

/-- One step leads to a state with unique ids exactly if no index is deleted that has been
given to another process. -/
theorem uniqueIds_step_iff (invariant : RegistryInvariant processes system)
    (unique : processes.UniqueIds system)
    (stepped : processes.registryStep system action = some next) :
    processes.UniqueIds next ↔ processes.NotGivenAgain system action := by
  cases action with
  | setId i => exact iff_of_true (uniqueIds_setIdStep invariant unique stepped) trivial
  | unregister i => exact uniqueIds_unregisterStep_iff unique stepped
  | crash i =>
      cases stepped
      apply iff_of_true
      · apply unique.kept
        · intro j other
          exact holds_moved (not_holds_of_running (by simp) (by simp))
        · exact fun j other _ => rfl
      · trivial
  | expire i index =>
      simp only [registryStep] at stepped
      split at stepped
      · split_ifs at stepped
        cases stepped
        apply iff_of_true
        · apply unique.kept
          · exact fun j other held => held
          · intro j other _
            exact hget_congr (lookup_del_presence i index j) _
        · trivial
      · cases stepped
  | handle key =>
      simp only [registryStep] at stepped
      split_ifs at stepped with isEvent
      rcases invariant.events key isEvent with ⟨i, index, rfl⟩
      rcases Option.some.inj stepped with rfl
      exact uniqueIds_handle_iff unique isEvent rfl rfl

/-! ## Steps in the section -/

omit [DecidableEq ι] in
/-- One process at a time is in the section. -/
theorem RegistryInvariant.eq_of_inSection (invariant : RegistryInvariant processes system)
    (inSection : (system.place i).InSection) (otherInSection : (system.place j).InSection) :
    j = i :=
  Option.some.inj ((invariant.lock j otherInSection).symm.trans (invariant.lock i inSection))

theorem not_inSection_outside : ¬ Place.outside.InSection :=
  id

theorem not_inSection_reusing : ¬ Place.reusing.InSection :=
  id

omit [DecidableEq ι] in
/-- Outside the section it does not matter what was read. -/
theorem sees_of_not_inSection {place : Place} (notInSection : ¬ place.InSection) :
    processes.Sees place j index := by
  cases place with
  | scanned | read | listed => exact absurd trivial notInSection
  | _ => trivial

/-- A process goes on to a place where it does not run, and keeps the presence of the
others. -/
theorem RegistryInvariant.goesOn (invariant : RegistryInvariant processes system) {place : Place}
    (notRunning : ∀ index, place ≠ .running index) {lock : Option ι}
    (locks : ∀ j, ((moved system i place).place j).InSection → lock = some j) {db : Db}
    (kept : ∀ j index, j ≠ i → system.place j = .running index →
      db.lookup (processes.presence j index) = system.db.lookup (processes.presence j index))
    (sees : ∀ j index, system.place j = .running index →
      processes.service j = processes.service i → processes.Sees place j index) :
    RegistryInvariant processes { moved system i place with db := db, lock := lock } := by
  have wasRunning {j : ι} {index : Nat}
      (running : (moved system i place).place j = .running index) :
      j ≠ i ∧ system.place j = .running index := by
    by_cases isOwn : j = i
    · subst isOwn
      rw [place_moved] at running
      exact absurd running (notRunning index)
    · rw [place_moved_of_ne isOwn] at running
      exact ⟨isOwn, running⟩
  constructor
  · exact locks
  · intro j index running
    rcases wasRunning running with ⟨isOther, before⟩
    exact (get_congr (kept j index isOther before)).trans (invariant.presence j index before)
  · intro viewer j index running sameService
    have before := (wasRunning running).2
    by_cases isOwn : viewer = i
    · subst isOwn
      rw [place_moved]
      exact sees j index before sameService
    · rw [place_moved_of_ne isOwn]
      exact invariant.sees viewer j index before sameService
  · exact invariant.events

/-- Where one process goes on from the section, no other is in it. -/
theorem RegistryInvariant.locks (invariant : RegistryInvariant processes system)
    (inSection : (system.place i).InSection) {place : Place} {lock : Option ι}
    (locks : place.InSection → lock = some i) (j : ι)
    (inside : ((moved system i place).place j).InSection) : lock = some j := by
  by_cases isOwn : j = i
  · subst isOwn
    rw [place_moved] at inside
    exact locks inside
  · rw [place_moved_of_ne isOwn] at inside
    exact absurd (invariant.eq_of_inSection inSection inside) isOwn

/-- `SETEX`: the process runs, and its presence is its own. -/
theorem RegistryInvariant.runs (invariant : RegistryInvariant processes system)
    (unique : processes.UniqueIds system) (isTaken : system.place i = .taken index) :
    RegistryInvariant processes { unlocked system i (.running index) with
      db := set system.db (processes.presence i index) (processes.uuid i) } := by
  have inSection : (system.place i).InSection := by
    rw [isTaken]
    trivial
  constructor
  · exact invariant.locks inSection fun inside => inside.elim
  · intro j other running
    change (moved system i _).place j = _ at running
    by_cases isOwn : j = i
    · subst isOwn
      rw [place_moved] at running
      cases running
      exact get_set _ _
    · rw [place_moved_of_ne isOwn] at running
      rw [← invariant.presence j other running]
      apply get_congr
      apply lookup_set_of_ne
      intro same
      rcases presence_injective same with ⟨sameService, rfl⟩
      exact isOwn (unique.eq_of_holds sameService (Or.inr running) (Or.inl isTaken))
  · intro viewer j other running sameService
    change (moved system i _).place j = _ at running
    change processes.Sees ((moved system i _).place viewer) j other
    by_cases isViewer : viewer = i
    · subst isViewer
      rw [place_moved]
      trivial
    · rw [place_moved_of_ne isViewer]
      by_cases isOwn : j = i
      · apply sees_of_not_inSection
        exact fun inside => isViewer (invariant.eq_of_inSection inSection inside)
      · rw [place_moved_of_ne isOwn] at running
        exact invariant.sees viewer j other running sameService
  · exact invariant.events

/-- The commands of `SetId` keep the invariant. -/
theorem RegistryInvariant.setId (literal : ∀ i, Literal (processes.service i))
    (invariant : RegistryInvariant processes system) (unique : processes.UniqueIds system)
    (stepped : processes.setIdStep system i = some next) : RegistryInvariant processes next := by
  have inDb {j : ι} {index : Nat} (running : system.place j = .running index) :
      get system.db (processes.presence j index) = some (processes.uuid j) :=
    invariant.presence j index running
  unfold setIdStep at stepped
  split at stepped
  · split_ifs at stepped with unlocked
    cases stepped
    apply invariant.goesOn (by simp)
    · intro j inside
      by_cases isOwn : j = i
      · rw [isOwn]
      · rw [place_moved_of_ne isOwn] at inside
        cases unlocked.symm.trans (invariant.lock j inside)
    · exact fun _ _ _ _ => rfl
    · exact fun _ _ _ _ => trivial
  · rename_i isLocked
    have inSection : (system.place i).InSection := by
      rw [isLocked]
      trivial
    cases stepped
    apply invariant.goesOn (by simp) (invariant.locks inSection fun _ => invariant.lock i inSection)
    · exact fun _ _ _ _ => rfl
    · intro j index running sameService
      apply (mem_scan _).mpr
      constructor
      · exact AList.lookup_isSome.mp (Option.isSome_iff_exists.mpr
          ⟨_, (get_eq_some_iff _).mp (inDb running)⟩)
      · apply (literal i _).mpr
        exact ⟨processes.fId j index, by rw [Processes.presence, sameService]⟩
  · rename_i presenceKeys isScanned
    have inSection : (system.place i).InSection := by
      rw [isScanned]
      trivial
    split at stepped
    · cases stepped
      apply invariant.goesOn (by simp)
        (invariant.locks inSection fun inside => absurd inside not_inSection_outside)
      · exact fun _ _ _ _ => rfl
      · exact fun _ _ _ _ => trivial
    · rename_i uuidList isRead
      cases stepped
      apply invariant.goesOn (by simp)
        (invariant.locks inSection fun _ => invariant.lock i inSection)
      · exact fun _ _ _ _ => rfl
      · intro j index running sameService
        have seen := invariant.sees i j index running sameService
        rw [isScanned] at seen
        exact (mem_of_mget isRead _).mpr ⟨_, seen, inDb running⟩
  · rename_i uuidList isRead
    have inSection : (system.place i).InSection := by
      rw [isRead]
      trivial
    split at stepped
    · cases stepped
      apply invariant.goesOn (by simp)
        (invariant.locks inSection fun inside => absurd inside not_inSection_outside)
      · exact fun _ _ _ _ => rfl
      · exact fun _ _ _ _ => trivial
    · rename_i hash isHash
      cases stepped
      apply invariant.goesOn (by simp)
        (invariant.locks inSection fun _ => invariant.lock i inSection)
      · exact fun _ _ _ _ => rfl
      · intro j index running sameService
        have seen := invariant.sees i j index running sameService
        rw [isRead] at seen
        have mapped := unique.mapped j index (Or.inr running)
        rw [hashKey, sameService, ← hashKey, hget, ← eq_hgetall_of_hgetallOrThrow isHash] at mapped
        exact ⟨seen, mapped⟩
  · rename_i uuidList hash isListed
    have inSection : (system.place i).InSection := by
      rw [isListed]
      trivial
    have kept (j : ι) (index : Nat) :
        (hdelAll system.db (processes.hashKey i) (indexExpired hash uuidList)).lookup
          (processes.presence j index) = system.db.lookup (processes.presence j index) :=
      lookup_hdelAll_of_ne (presence_ne_hashKey j i index).symm _
    dsimp only at stepped
    split_ifs at stepped
    · cases stepped
      apply invariant.goesOn (by simp)
        (invariant.locks inSection fun _ => invariant.lock i inSection)
      · exact fun j index _ _ => kept j index
      · exact fun _ _ _ _ => trivial
    · cases stepped
      apply invariant.goesOn (by simp)
        (invariant.locks inSection fun inside => absurd inside not_inSection_reusing)
      · exact fun j index _ _ => kept j index
      · exact fun _ _ _ _ => trivial
  · rename_i index isTrying
    have inSection : (system.place i).InSection := by
      rw [isTrying]
      trivial
    cases found : hget system.db (processes.hashKey i) (Text.decimal index) with
    | some owner =>
        simp only [hsetnx, found] at stepped
        cases stepped
        apply invariant.goesOn (by simp)
          (invariant.locks inSection fun _ => invariant.lock i inSection)
        · exact fun _ _ _ _ => rfl
        · exact fun _ _ _ _ => trivial
    | none =>
        simp only [hsetnx, found] at stepped
        cases stepped
        apply invariant.goesOn (by simp)
          (invariant.locks inSection fun _ => invariant.lock i inSection)
        · intro j other _ _
          exact lookup_hset_of_ne _ (presence_ne_hashKey j i other).symm _
        · exact fun _ _ _ _ => trivial
  · rename_i index isTaken
    cases stepped
    exact invariant.runs unique isTaken
  · cases stepped

/-- A process that leaves without the lock. -/
theorem RegistryInvariant.leaves (invariant : RegistryInvariant processes system) {place : Place}
    (notRunning : ∀ index, place ≠ .running index) (notInSection : ¬ place.InSection)
    {lock : Option ι} (locks : ∀ j, j ≠ i → system.lock = some j → lock = some j) {db : Db}
    (kept : ∀ j index, j ≠ i → system.place j = .running index →
      db.lookup (processes.presence j index) = system.db.lookup (processes.presence j index)) :
    RegistryInvariant processes { moved system i place with db := db, lock := lock } := by
  apply invariant.goesOn notRunning
  · intro j inside
    by_cases isOwn : j = i
    · subst isOwn
      rw [place_moved] at inside
      exact absurd inside notInSection
    · rw [place_moved_of_ne isOwn] at inside
      exact locks j isOwn (invariant.lock j inside)
  · exact kept
  · exact fun _ _ _ _ => sees_of_not_inSection notInSection

omit [DecidableEq ι] in
/-- The processes stay where they are, and those that run keep their presence. -/
theorem RegistryInvariant.stays (invariant : RegistryInvariant processes system) {db : Db}
    (kept : ∀ j index, system.place j = .running index →
      get db (processes.presence j index) = get system.db (processes.presence j index))
    {events : List Text}
    (ofPresence : ∀ key ∈ events, ∃ i index, key = processes.presence i index) :
    RegistryInvariant processes { system with db := db, events := events } := by
  constructor
  · exact invariant.lock
  · intro j index running
    exact (kept j index running).trans (invariant.presence j index running)
  · exact invariant.sees
  · exact ofPresence

/-- Every step keeps the invariant. -/
theorem RegistryInvariant.step (literal : ∀ i, Literal (processes.service i))
    (invariant : RegistryInvariant processes system) (unique : processes.UniqueIds system)
    (stepped : processes.registryStep system action = some next) :
    RegistryInvariant processes next := by
  cases action with
  | setId i => exact invariant.setId literal unique stepped
  | unregister i =>
      simp only [registryStep, unregisterStep] at stepped
      split at stepped
      · rename_i index isRunning
        cases stepped
        apply invariant.leaves (by simp) id (fun _ _ => id)
        intro j other isOther running
        rw [lookup_del, if_neg]
        rw [List.mem_singleton]
        intro same
        rcases presence_injective same with ⟨sameService, rfl⟩
        exact isOther (unique.eq_of_holds sameService (Or.inr running) (Or.inr isRunning))
      · rename_i index isLeaving
        cases stepped
        apply invariant.leaves (by simp) id (fun _ _ => id)
        intro j other _ _
        exact lookup_hdel_of_ne _ (presence_ne_hashKey j i other).symm _
      · cases stepped
  | crash i =>
      cases stepped
      apply invariant.leaves (by simp) id
      · intro j isOther isLocked
        rw [if_neg]
        · exact isLocked
        · intro same
          exact isOther (Option.some.inj (isLocked.symm.trans same))
      · exact fun _ _ _ _ => rfl
  | expire i index =>
      simp only [registryStep] at stepped
      split at stepped
      · rename_i isGone
        split_ifs at stepped with present
        cases stepped
        apply invariant.stays
        · intro j other running
          apply get_congr
          rw [lookup_del, if_neg]
          rw [List.mem_singleton]
          intro same
          have own := invariant.presence j other running
          rw [same, present] at own
          rw [processes.uuid_injective (Option.some.inj own), running] at isGone
          cases isGone
        · intro key member
          rcases List.mem_append.mp member with before | new
          · exact invariant.events key before
          · exact ⟨i, index, List.mem_singleton.mp new⟩
      · cases stepped
  | handle key =>
      simp only [registryStep] at stepped
      split_ifs at stepped with isEvent
      cases stepped
      apply invariant.stays
      · intro j other _
        rcases invariant.events key isEvent with ⟨i, index, rfl⟩
        apply get_congr
        rw [processExpiredKey_presence]
        exact lookup_hdel_of_ne _ (presence_ne_hashKey j i other).symm _
      · intro other member
        exact invariant.events other (List.mem_of_mem_erase member)

/-- An action that is refused deletes no index. -/
theorem notGivenAgain_of_refused (refused : processes.registryStep system action = none) :
    processes.NotGivenAgain system action := by
  cases action with
  | unregister i =>
      intro index isLeaving
      simp [registryStep, unregisterStep, isLeaving] at refused
  | handle key =>
      intro isEvent
      simp [registryStep, isEvent] at refused
  | _ => trivial

end Processes

open Processes

/-- No process has started, whatever the registry has from before. -/
def unstarted {ι : Type} (db : Db) : Registrations ι where
  db := db
  place := fun _ => .outside
  lock := none
  events := []

/-- Where the service names are taken literally in the pattern for presence keys, the ids of
a run stay unique, and the hashes map the indices to the uuids, if and only if no index is
given again before `Unregister` or the controller deletes it. -/
theorem always_uniqueIds_iff {ι : Type} [DecidableEq ι] (processes : Processes ι)
    (literal : ∀ i, Literal (processes.service i)) (db : Db) (actions : List (RegistryAction ι)) :
    Always processes.registryStep processes.UniqueIds (unstarted db) actions ↔
      Meets processes.registryStep processes.NotGivenAgain (unstarted db) actions := by
  have nobody (i : ι) (index : Nat) : ¬ ((unstarted db : Registrations ι).place i).Holds index :=
    not_holds_of_running (fun _ same => by cases same) (fun _ same => by cases same) index
  apply @always_iff_meets _ _ processes.registryStep _ (RegistryInvariant processes)
  · exact fun invariant unique stepped => invariant.step literal unique stepped
  · exact fun invariant unique stepped => uniqueIds_step_iff invariant unique stepped
  · exact notGivenAgain_of_refused
  · constructor
    · exact fun _ inside => inside.elim
    · exact fun _ _ running => by cases running
    · exact fun _ _ _ running => by cases running
    · exact fun _ member => by cases member
  · constructor
    · exact fun i _ first _ _ _ holds => absurd holds (nobody i first)
    · exact fun i index holds => absurd holds (nobody i index)

/-- Three samplers. -/
def samplers : Processes (Fin 3) where
  service := fun _ => "Sampler".toList
  uuid := fun i => Text.decimal i
  uuid_injective := Text.decimal_injective.comp Fin.val_injective
  part := fun _ => by decide

theorem literal_samplers (i : Fin 3) : Literal (samplers.service i) :=
  @literal_of_plain "Sampler".toList (by decide)

instance {ι : Type} [Fintype ι] (processes : Processes ι) (system : Registrations ι) :
    DecidablePred (processes.NotGivenAgain system)
  | .unregister i =>
      match isPlace : system.place i with
      | .leaving index =>
          decidable_of_iff (∀ j, (system.place j).held = some index →
              processes.service j ≠ processes.service i) <| by
            simp only [NotGivenAgain, isPlace, Place.leaving.injEq, forall_eq', holds_iff]
      | .outside | .locked | .scanned _ | .read _ | .listed _ _ | .trying _ | .taken _ | .reusing
      | .running _ | .gone => .isTrue fun _ isLeaving => by cases isPlace.symm.trans isLeaving
  | .handle key =>
      decidable_of_iff (key ∈ system.events → ∀ j, ∀ index ∈ (system.place j).held,
          '-' ∉ processes.service j → key ≠ processes.presence j index) <| by
        simp only [NotGivenAgain, holds_iff, Option.mem_def]
  | .setId _ | .crash _ | .expire _ _ => .isTrue trivial

/-- Two samplers start. The first one crashes, and the controller handles the expiry of its
presence before the third one starts. Then the second one stops. -/
def orderlyActions : List (RegistryAction (Fin 3)) :=
  List.replicate 7 (.setId 0) ++ List.replicate 8 (.setId 1) ++
    [.crash 0, .expire 0 0, .handle (samplers.presence 0 0)] ++ List.replicate 7 (.setId 2) ++
    List.replicate 2 (.unregister 1)

/-- The third sampler runs with the index that the first one has had. -/
theorem samplers_uniqueIds :
    Always samplers.registryStep samplers.UniqueIds (unstarted ∅) orderlyActions ∧
      (run samplers.registryStep (unstarted ∅) orderlyActions).map (fun system =>
        ((system.place 0).held, (system.place 1).held, (system.place 2).held)) =
          some (none, none, some 0) :=
  ⟨(always_uniqueIds_iff samplers literal_samplers ∅ _).mpr (by decide +kernel),
    by decide +kernel⟩

/-- The first sampler crashes, its presence expires and the second sampler takes the index,
before the controller handles the event; then the third one starts. -/
def overtakenActions : List (RegistryAction (Fin 3)) :=
  List.replicate 7 (.setId 0) ++ [.crash 0, .expire 0 0] ++ List.replicate 7 (.setId 1) ++
    [.handle (samplers.presence 0 0)] ++ List.replicate 7 (.setId 2)

/-- The second and the third sampler have the same id. -/
theorem overtaken_not_uniqueIds :
    ¬ Always samplers.registryStep samplers.UniqueIds (unstarted ∅) overtakenActions := by
  intro always
  have ended : (run samplers.registryStep (unstarted ∅) overtakenActions).any (fun system =>
      (system.place 1).held = some 0 ∧ (system.place 2).held = some 0) := by decide +kernel
  rcases (Option.any_eq_true _ _).mp ended with ⟨last, reached, both⟩
  rcases of_decide_eq_true both with ⟨second, third⟩
  have unique := (always_iff_forall_reached _ _ _ _).mp always _ List.prefix_rfl last reached
  exact unique.distinct 1 2 0 0 (by decide) rfl (holds_iff.mpr second) (holds_iff.mpr third) rfl

end NestDaq.Controller
