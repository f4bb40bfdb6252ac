import NestDaq.Registry.Allocation

/-!
# Identity and presence

Peers find an instance by its presence key. `SetId` writes that key and notes it only
when it takes a fresh index; with an id from the options, without a service and with
an index that is mapped to the process already, the member that `ResetTtl` refreshes
and `Unregister` relies on stays empty.
-/

namespace NestDaq.Registry

open Store

def updateTimePrefix : Text := "updatedTime".toList

namespace Identity

variable (self : Identity) (db : Db)

/-- `<top>:<service>:<id>:fair-mq-state`. -/
def fFairMQStateKey : Text :=
  Text.join [topPrefix, self.fServiceName, self.fId, fairMQStatePrefix] colon

/-- `<top>:<service>:<id>:updatedTime`. -/
def fUpdateTimeKey : Text :=
  Text.join [topPrefix, self.fServiceName, self.fId, updateTimePrefix] colon

/-- The values that `ResetTtl` writes; the expiry times are not part of them. -/
def resetTtl (lastChecked uptime state : Text) : Db :=
  let db := hset db (healthKey self.fServiceName self.fId)
    [("updatedTime".toList, lastChecked), ("uptime".toList, uptime)]
  let db := set db self.presence self.fUuid
  let db := set db self.fFairMQStateKey state
  set db self.fUpdateTimeKey lastChecked

/-- `Unregister`. -/
def unregister : Db :=
  self.fRegisteredHashes.foldl (fun db entry => hdel db entry.1 entry.2)
    (del db self.fRegisteredKeys)

end Identity

/-- The id, the presence and the index hash agree. -/
structure Identity.Agrees (inst : Identity) (db : Db) (indexed : Prop) : Prop where
  presence : inst.presence = presenceKey inst.fServiceName inst.fId
  registered : inst.presence ∈ inst.fRegisteredKeys
  refreshed : ∀ db lastChecked uptime state,
    get (inst.resetTtl db lastChecked uptime state) (presenceKey inst.fServiceName inst.fId) =
      some inst.fUuid
  removed : ∀ db, presenceKey inst.fServiceName inst.fId ∉ inst.unregister db
  index : indexed → ∃ index, inst.fId = indexedId inst.fServiceName index ∧
    hget db (indexKey inst.fServiceName) index = some inst.fUuid

/-- The process finds an index that is mapped to its uuid. -/
def Reuses (db : Db) (service uuid : Text) : Prop :=
  ∃ uuidList, mget db (scan db (presenceKey service ['*'])) = some uuidList ∧
    myIndex (hgetall db (indexKey service)) uuidList uuid ≠ []

section Identity

variable {self : Identity} {db : Db}

theorem mem_hdel {key other field : Text} : other ∈ hdel db key field ↔ other ∈ db := by
  unfold hdel
  split
  · rename_i fields stored
    rw [AList.mem_insert]
    refine ⟨fun either => either.elim (fun same => ?_) id, Or.inr⟩
    subst same
    exact AList.lookup_isSome.mp (Option.isSome_iff_exists.mpr ⟨_, stored⟩)
  · exact Iff.rfl

theorem Identity.notMem_unregister {key : Text} (registered : key ∈ self.fRegisteredKeys) :
    key ∉ self.unregister db := by
  have fields (entries : List (Text × Text)) (db : Db) (absent : key ∉ db) :
      key ∉ entries.foldl (fun db entry => hdel db entry.1 entry.2) db := by
    induction entries generalizing db with
    | nil => exact absent
    | cons entry entries ih => exact ih _ fun member => absent (mem_hdel.mp member)
  exact fields _ _ fun member => ((mem_del db).mp member).1 registered

/-- `ResetTtl` writes the uuid at the presence key that is noted. -/
theorem Identity.get_resetTtl (presence : self.presence = presenceKey self.fServiceName self.fId)
    (lastChecked uptime state : Text) :
    get (self.resetTtl db lastChecked uptime state) (presenceKey self.fServiceName self.fId) =
      some self.fUuid := by
  have differs {last : Text} (other : last ≠ presencePrefix) :
      presenceKey self.fServiceName self.fId ≠
        Text.join [topPrefix, self.fServiceName, self.fId, last] colon := by
    intro same
    exact other (by simpa [presenceKey, colon] using same.symm)
  have notState : presenceKey self.fServiceName self.fId ≠ self.fFairMQStateKey :=
    differs (by decide)
  have notUpdate : presenceKey self.fServiceName self.fId ≠ self.fUpdateTimeKey :=
    differs (by decide)
  rw [resetTtl, get_congr (lookup_set_of_ne _ notUpdate _),
    get_congr (lookup_set_of_ne _ notState _), presence]
  exact get_set _ _

end Identity

variable {service uuid : Text} {db after : Db} {self : Identity}

theorem presenceKey_ne_nil (service instanceId : Text) : presenceKey service instanceId ≠ [] := by
  rw [presenceKey_eq]
  exact List.cons_ne_nil _ _

/-- The process with an id property. -/
def instanceWithOption (service uuid : Text) (option : Option Text) : Identity :=
  { newInstance service uuid with idProperty := option }

theorem idOrUuid_presence : self.idOrUuid.presence = self.presence := by
  unfold Identity.idOrUuid
  split_ifs <;> rfl

theorem agrees_of_presence (presence : self.presence = presenceKey self.fServiceName self.fId)
    (registered : self.presence ∈ self.fRegisteredKeys) {indexed : Prop}
    (index : indexed → ∃ index, self.fId = indexedId self.fServiceName index ∧
      hget after (indexKey self.fServiceName) index = some self.fUuid) :
    self.Agrees after indexed where
  presence := presence
  registered := registered
  refreshed _ := Identity.get_resetTtl presence
  removed _ := Identity.notMem_unregister (presence ▸ registered)
  index := index

/-- A fresh index agrees with the presence that is written with it. -/
theorem agrees_allocate (self : Identity) (db : Db) (indexed : Prop) :
    (self.allocate db).1.publishId.Agrees (self.allocate db).2 indexed :=
  agrees_of_presence rfl (List.mem_insert_self) fun _ =>
    ⟨_, rfl, (self.hget_allocate db _).trans (if_pos rfl)⟩

theorem eq_hgetall_of_hgetallOrThrow {key : Text} {hash : Hash}
    (isHash : hgetallOrThrow db key = some hash) : hash = hgetall db key := by
  unfold hgetallOrThrow at isHash
  rw [hgetall]
  split at isHash
  all_goals
    rename_i stored
    first
      | rw [stored]
        exact (Option.some.inj isHash).symm
      | cases isHash

/-- How `SetId` ends: the presence key is noted where an index is allocated, and is empty
elsewhere. -/
theorem setId_cases {option : Option Text}
    (ended : (instanceWithOption service uuid option).setId db = some (self, after)) :
    (option.getD [] = [] ∧ service ≠ [] ∧ ¬ Reuses db service uuid) ∧
        (∃ allocating middle, self = (Identity.allocate allocating middle).1.publishId ∧
          after = (Identity.allocate allocating middle).2) ∨
      ¬ (option.getD [] = [] ∧ service ≠ [] ∧ ¬ Reuses db service uuid) ∧ self.presence = [] := by
  by_cases waits : option.getD [] = [] ∧ service ≠ []
  · have locks : (instanceWithOption service uuid option).setId db =
        (Identity.lockedSection { instanceWithOption service uuid option with
          fId := option.getD [] } db).map fun result =>
            (result.1.publishId.idOrUuid, result.2) :=
      if_pos waits
    rw [locks, Option.map_eq_some_iff] at ended
    obtain ⟨⟨locked, middle⟩, ran, same⟩ := ended
    obtain ⟨rfl, rfl⟩ := Prod.mk.inj same
    obtain ⟨uuidList, read, typed⟩ := Option.bind_eq_some_iff.mp ran
    obtain ⟨hash, isHash, chosen⟩ := Option.bind_eq_some_iff.mp typed
    obtain rfl := eq_hgetall_of_hgetallOrThrow isHash
    split_ifs at chosen with none
    · left
      obtain ⟨rfl, rfl⟩ := Prod.mk.inj (Option.some.inj chosen)
      refine ⟨⟨waits.1, waits.2, ?_⟩, _, _, if_neg (indexedId_ne_nil _ _), rfl⟩
      rintro ⟨other, readOther, some⟩
      obtain rfl := Option.some.inj (read.symm.trans readOther)
      exact some none
    · right
      obtain ⟨rfl, rfl⟩ := Prod.mk.inj (Option.some.inj chosen)
      exact ⟨fun all => all.2.2 ⟨uuidList, read, none⟩, idOrUuid_presence⟩
  · have direct : (instanceWithOption service uuid option).setId db =
        some (Identity.idOrUuid { instanceWithOption service uuid option with
          fId := option.getD [] }, db) :=
      if_neg waits
    rw [direct] at ended
    obtain ⟨rfl, rfl⟩ := Prod.mk.inj (Option.some.inj ended)
    exact Or.inr ⟨fun all => waits ⟨all.1, all.2.1⟩, idOrUuid_presence⟩

/-- The id, the presence and the index hash agree after `SetId` if and only if the id is
not given, the service has a name, and no index is mapped to the process already. -/
theorem setId_agrees_iff {option : Option Text}
    (ended : (instanceWithOption service uuid option).setId db = some (self, after)) :
    self.Agrees after (option.getD [] = [] ∧ service ≠ []) ↔
      option.getD [] = [] ∧ service ≠ [] ∧ ¬ Reuses db service uuid := by
  rcases setId_cases ended with ⟨fresh, allocating, middle, rfl, rfl⟩ | ⟨notFresh, empty⟩
  · exact iff_of_true (agrees_allocate allocating middle _) fresh
  · refine iff_of_false (fun agrees => ?_) notFresh
    exact presenceKey_ne_nil _ _ (agrees.presence.symm.trans empty)

/-- The first sampler takes index zero. -/
theorem sampler_agrees :
    ∃ self after, (instanceWithOption "Sampler".toList "u".toList none).setId ∅ =
        some (self, after) ∧
      self.Agrees after ((none : Option Text).getD [] = [] ∧ "Sampler".toList ≠ []) := by
  obtain ⟨⟨self, after⟩, ended⟩ : ∃ result,
      (instanceWithOption "Sampler".toList "u".toList none).setId ∅ = some result :=
    Option.isSome_iff_exists.mp (by decide +kernel)
  refine ⟨self, after, ended, (setId_agrees_iff ended).mpr ⟨rfl, by decide, ?_⟩⟩
  rintro ⟨uuidList, -, some⟩
  exact some rfl

/-- A sampler whose id is given has no presence key. -/
theorem sampler_not_agrees :
    ∃ self after, (instanceWithOption "Sampler".toList "u".toList (some "first".toList)).setId ∅ =
        some (self, after) ∧
      ¬ self.Agrees after ((some "first".toList).getD [] = [] ∧ "Sampler".toList ≠ []) := by
  refine ⟨_, _, rfl, fun agrees => ?_⟩
  exact presenceKey_ne_nil _ _ agrees.presence.symm

end NestDaq.Registry
