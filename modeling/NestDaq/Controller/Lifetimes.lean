import NestDaq.Controller.Indices

/-!
# Indices and the lifetime of presences

`SetId` writes the presence of a process for one lifetime, and every turn of its timer
writes it for another one. Redis deletes a key past its deadline, at any time but not later
than a command comes to the key, and tells the controller. A process is in the registry
with an id of its own as long as the turns of the timer come in time and no index is given
again before it is deleted. The other way round, what is in the registry of a process it
has written less than a lifetime ago.
-/

namespace NestDaq.Controller

open NestDaq.Registry
open NestDaq.Store
open NestDaq.Transition

/-! ## Registrations in time -/

/-- Registrations with the deadlines of the keys, the times at which the processes have
last written their presences, the indices under which they did, and the time. -/
structure TimedRegistrations (ι : Type) where
  registrations : Registrations ι
  deadline : Text → Option Nat
  written : ι → Nat
  index : ι → Nat
  now : Nat

inductive TimedRegistryAction (ι : Type)
  /-- A command or a crash of a process, the controller with an event, or Redis with a
  presence past its deadline. -/
  | act (action : RegistryAction ι)
  /-- A turn of the timer of a process. -/
  | resetTtl (i : ι)
  | wait (duration : Nat)

/-- The place is that of a process that runs. -/
def Place.Runs : Place → Prop
  | running _ => True
  | _ => False

instance : DecidablePred Place.Runs
  | .running _ => .isTrue trivial
  | .outside | .locked | .scanned _ | .read _ | .listed _ _ | .trying _ | .taken _ | .reusing
  | .leaving _ | .gone => .isFalse id

theorem Place.runs_iff {place : Place} : place.Runs ↔ ∃ index, place = .running index := by
  cases place <;> simp [Place.Runs]

/-- The process runs with the index or has ended. -/
def Registrations.Known {ι : Type} (system : Registrations ι) (i : ι) (index : Nat) : Prop :=
  system.place i = .running index ∨ system.place i = .gone

/-- The key is past its deadline. -/
def TimedRegistrations.Lapsed {ι : Type} (system : TimedRegistrations ι) (key : Text) : Prop :=
  ∃ deadline ∈ system.deadline key, deadline ≤ system.now

instance {ι : Type} (system : TimedRegistrations ι) (key : Text) : Decidable (system.Lapsed key) :=
  inferInstanceAs (Decidable (∃ deadline ∈ system.deadline key, deadline ≤ system.now))

namespace Processes

variable {ι : Type} (processes : Processes ι)

/-- The presences that a command of a process reads or writes. -/
def accessed (system : Registrations ι) : RegistryAction ι → List Text
  | .setId i =>
      match system.place i with
      | .locked => scan system.db (presenceKey (processes.service i) ['*'])
      | .scanned presenceKeys => presenceKeys
      | .taken index => [processes.presence i index]
      | _ => []
  | .unregister i =>
      match system.place i with
      | .running index => [processes.presence i index]
      | _ => []
  | _ => []

variable [DecidableEq ι] (term : Nat) (system : TimedRegistrations ι)

/-- `SETEX`: a process has written its presence for one lifetime. -/
def renewed (i : ι) (index : Nat) (registrations : Registrations ι) : TimedRegistrations ι where
  registrations := registrations
  deadline :=
    Function.update system.deadline (processes.presence i index) (some (system.now + term))
  written := Function.update system.written i system.now
  index := Function.update system.index i index
  now := system.now

/-- A presence is deleted, and with it its deadline. -/
def freed (i : ι) (index : Nat) (registrations : Registrations ι) : TimedRegistrations ι :=
  { system with
    registrations := registrations
    deadline := Function.update system.deadline (processes.presence i index) none }

/-- What a command does to the deadlines. -/
def timed (action : RegistryAction ι) (registrations : Registrations ι) :
    TimedRegistrations ι :=
  match action with
  | .setId i =>
      match system.registrations.place i with
      | .taken index => processes.renewed term system i index registrations
      | _ => { system with registrations := registrations }
  | .unregister i =>
      match system.registrations.place i with
      | .running index => processes.freed system i index registrations
      | _ => { system with registrations := registrations }
  | _ => { system with registrations := registrations }

/-- One step of the registrations in time. A command waits until Redis has deleted what has
lapsed of the keys that it accesses. -/
def timedStep : Step (TimedRegistrations ι) (TimedRegistryAction ι)
  | system, .act (.expire i index) =>
      if system.Lapsed (processes.presence i index) then
        some (processes.freed system i index
          { system.registrations with
            db := del system.registrations.db [processes.presence i index]
            events := system.registrations.events ++ [processes.presence i index] })
      else none
  | system, .act action =>
      if ∀ key ∈ processes.accessed system.registrations action, ¬ system.Lapsed key then
        (processes.registryStep system.registrations action).map
          (processes.timed term system action)
      else none
  | system, .resetTtl i =>
      match system.registrations.place i with
      | .running index =>
          if system.Lapsed (processes.presence i index) then none
          else
            some (processes.renewed term system i index
              { system.registrations with
                db := set system.registrations.db (processes.presence i index)
                  (processes.uuid i) })
      | _ => none
  | system, .wait duration => some { system with now := system.now + duration }

/-- The ids are unique, and the processes that run are in the registry. -/
structure Registered (system : TimedRegistrations ι) : Prop where
  unique : processes.UniqueIds system.registrations
  present : ∀ i index, system.registrations.place i = .running index →
    get system.registrations.db (processes.presence i index) = some (processes.uuid i) ∧
      ¬ system.Lapsed (processes.presence i index)

/-- A presence that is seen is that of a process that has written it less than a lifetime
ago, under its own index. The process runs with that id or has ended. -/
def Truthful (system : TimedRegistrations ι) : Prop :=
  ∀ i j index,
    get system.registrations.db (processes.presence j index) = some (processes.uuid i) →
      ¬ system.Lapsed (processes.presence j index) →
        processes.service j = processes.service i ∧ system.registrations.Known i index ∧
          system.index i = index ∧ system.now < system.written i + term

omit [DecidableEq ι] in
/-- No process that runs waits for as long as the lifetime for a turn of its timer. -/
def InTime (system : TimedRegistrations ι) : TimedRegistryAction ι → Prop
  | .wait duration => ∀ i, (system.registrations.place i).Runs →
      system.now + duration < system.written i + term
  | _ => True

/-- No index is deleted that has been given to another process in the meantime. -/
def SparesOthers (system : TimedRegistrations ι) : TimedRegistryAction ι → Prop
  | .act action => processes.NotGivenAgain system.registrations action
  | _ => True

/-! ## Presences and their deadlines -/

/-- The deadline of a presence is one lifetime after its process has written it, and
nothing else has a deadline. -/
structure Dated (system : TimedRegistrations ι) : Prop where
  events : ∀ key ∈ system.registrations.events, ∃ i index, key = processes.presence i index
  dated : ∀ i j index,
    get system.registrations.db (processes.presence j index) = some (processes.uuid i) →
      processes.service j = processes.service i ∧ system.registrations.Known i index ∧
        system.index i = index ∧
          system.deadline (processes.presence j index) = some (system.written i + term)
  owned : ∀ key deadline, system.deadline key = some deadline →
    ∃ i index, key = processes.presence i index ∧
      get system.registrations.db key = some (processes.uuid i)

variable {processes} {term : Nat} {system : TimedRegistrations ι} {i j : ι} {index other : Nat}
  {registrations : Registrations ι}

@[simp]
theorem registrations_renewed :
    (processes.renewed term system i index registrations).registrations = registrations :=
  rfl

omit [DecidableEq ι] in
@[simp]
theorem registrations_freed :
    (processes.freed system i index registrations).registrations = registrations :=
  rfl

theorem deadline_renewed (key : Text) :
    (processes.renewed term system i index registrations).deadline key =
      if key = processes.presence i index then some (system.now + term)
      else system.deadline key :=
  Function.update_apply ..

omit [DecidableEq ι] in
theorem deadline_freed (key : Text) :
    (processes.freed system i index registrations).deadline key =
      if key = processes.presence i index then none else system.deadline key :=
  Function.update_apply ..

theorem written_renewed (j : ι) :
    (processes.renewed term system i index registrations).written j =
      if j = i then system.now else system.written j :=
  Function.update_apply ..

theorem index_renewed (j : ι) :
    (processes.renewed term system i index registrations).index j =
      if j = i then index else system.index j :=
  Function.update_apply ..

omit [DecidableEq ι] in
/-- The presences and what is known of their processes stay. -/
theorem Dated.kept (dated : processes.Dated term system)
    (events : ∀ key ∈ registrations.events, key ∈ system.registrations.events)
    (presences : ∀ j index, registrations.db.lookup (processes.presence j index) =
      system.registrations.db.lookup (processes.presence j index))
    (known : ∀ j index, system.registrations.Known j index → registrations.Known j index) :
    processes.Dated term { system with registrations := registrations } := by
  constructor
  · exact fun key member => dated.events key (events key member)
  · intro i j index found
    rw [get_congr (presences j index)] at found
    rcases dated.dated i j index found with ⟨sameService, isKnown, isDeadline⟩
    exact ⟨sameService, known i index isKnown, isDeadline⟩
  · intro key deadline isDeadline
    rcases dated.owned key deadline isDeadline with ⟨i, index, rfl, found⟩
    exact ⟨i, index, rfl, (get_congr (presences i index)).trans found⟩

/-- A process writes its presence. -/
theorem Dated.renewed (dated : processes.Dated term system)
    (before : ∀ other, system.registrations.Known i other → other = index)
    (events : registrations.events = system.registrations.events)
    (written : registrations.db =
      set system.registrations.db (processes.presence i index) (processes.uuid i))
    (runs : registrations.place i = .running index)
    (places : ∀ j, j ≠ i → registrations.place j = system.registrations.place j) :
    processes.Dated term (processes.renewed term system i index registrations) := by
  have others {key : Text} (differs : key ≠ processes.presence i index) :
      get registrations.db key = get system.registrations.db key := by
    rw [written]
    exact get_congr (lookup_set_of_ne _ differs _)
  constructor
  · exact fun key member => dated.events key (events ▸ member)
  · intro owner j other found
    change get registrations.db (processes.presence j other) = some (processes.uuid owner) at found
    by_cases same : processes.presence j other = processes.presence i index
    · rw [same, written, get_set] at found
      cases processes.uuid_injective (Option.some.inj found)
      rcases presence_injective same with ⟨sameService, rfl⟩
      refine ⟨sameService, Or.inl runs, ?_, ?_⟩
      · rw [index_renewed, if_pos rfl]
      · rw [deadline_renewed, if_pos same, written_renewed, if_pos rfl]
    · rw [others same] at found
      rcases dated.dated owner j other found with ⟨sameService, isKnown, isIndex, isDeadline⟩
      have isOther : owner ≠ i := by
        rintro rfl
        cases before other isKnown
        apply same
        rw [presence, presence, fId, fId, sameService]
      refine ⟨sameService, ?_, ?_, ?_⟩
      · rwa [registrations_renewed, Registrations.Known, places owner isOther]
      · rwa [index_renewed, if_neg isOther]
      · rwa [deadline_renewed, if_neg same, written_renewed, if_neg isOther]
  · intro key deadline isDeadline
    by_cases same : key = processes.presence i index
    · subst same
      refine ⟨i, index, rfl, ?_⟩
      change get registrations.db _ = _
      rw [written, get_set]
    · rw [deadline_renewed, if_neg same] at isDeadline
      rcases dated.owned key deadline isDeadline with ⟨owner, other, rfl, found⟩
      exact ⟨owner, other, rfl, (others same).trans found⟩

omit [DecidableEq ι] in
/-- A presence is deleted. -/
theorem Dated.freed (dated : processes.Dated term system)
    (events : ∀ key ∈ registrations.events,
      key ∈ system.registrations.events ∨ key = processes.presence i index)
    (deleted : registrations.db = del system.registrations.db [processes.presence i index])
    (known : ∀ owner j other, processes.service j = processes.service owner →
      processes.presence j other ≠ processes.presence i index →
        system.registrations.Known owner other → registrations.Known owner other) :
    processes.Dated term (processes.freed system i index registrations) := by
  have kept {key : Text} {uuid : Text} (found : get registrations.db key = some uuid) :
      key ≠ processes.presence i index ∧ get system.registrations.db key = some uuid := by
    rw [get_eq_some_iff, deleted, lookup_del] at found
    split_ifs at found with member
    exact ⟨fun same => member (List.mem_singleton.mpr same), (get_eq_some_iff _).mpr found⟩
  constructor
  · intro key member
    rcases events key member with before | rfl
    · exact dated.events key before
    · exact ⟨i, index, rfl⟩
  · intro owner j other found
    rcases kept found with ⟨differs, before⟩
    rcases dated.dated owner j other before with ⟨sameService, isKnown, isIndex, isDeadline⟩
    refine ⟨sameService, known owner j other sameService differs isKnown, isIndex, ?_⟩
    rwa [deadline_freed, if_neg differs]
  · intro key deadline isDeadline
    by_cases same : key = processes.presence i index
    · rw [deadline_freed, if_pos same] at isDeadline
      cases isDeadline
    · rw [deadline_freed, if_neg same] at isDeadline
      rcases dated.owned key deadline isDeadline with ⟨owner, other, rfl, found⟩
      refine ⟨owner, other, rfl, ?_⟩
      rw [← found]
      apply get_congr
      change registrations.db.lookup _ = _
      rw [deleted, lookup_del, if_neg]
      rwa [List.mem_singleton]

/-- A command is one of the registrations, and Redis deletes a presence that has lapsed. -/
theorem timedStep_act_cases {action : RegistryAction ι} {next : TimedRegistrations ι}
    (stepped : processes.timedStep term system (.act action) = some next) :
    (∃ i index, action = .expire i index ∧ system.Lapsed (processes.presence i index) ∧
        next = processes.freed system i index
          { system.registrations with
            db := del system.registrations.db [processes.presence i index]
            events := system.registrations.events ++ [processes.presence i index] }) ∨
      (∀ i index, action ≠ .expire i index) ∧ ∃ registrations,
        processes.registryStep system.registrations action = some registrations ∧
          next = processes.timed term system action registrations := by
  cases action with
  | expire i index =>
      simp only [timedStep] at stepped
      split_ifs at stepped with lapsed
      cases stepped
      exact Or.inl ⟨i, index, rfl, lapsed, rfl⟩
  | setId i | unregister i | crash i | handle key =>
      simp only [timedStep] at stepped
      split_ifs at stepped
      rcases Option.map_eq_some_iff.mp stepped with ⟨registrations, acted, rfl⟩
      exact Or.inr ⟨by simp, registrations, acted, rfl⟩

/-- A turn of the timer writes the presence of a process that runs. -/
theorem timedStep_resetTtl {next : TimedRegistrations ι}
    (stepped : processes.timedStep term system (.resetTtl i) = some next) :
    ∃ index, system.registrations.place i = .running index ∧
      next = processes.renewed term system i index
        { system.registrations with
          db := set system.registrations.db (processes.presence i index) (processes.uuid i) } := by
  simp only [timedStep] at stepped
  split at stepped
  · rename_i index runs
    split_ifs at stepped
    cases stepped
    exact ⟨index, runs, rfl⟩
  · cases stepped

/-- A command renews a deadline, frees one, or leaves all of them. -/
theorem timed_cases (term : Nat) (system : TimedRegistrations ι) (action : RegistryAction ι)
    (registrations : Registrations ι) :
    (∃ i index, processes.timed term system action registrations =
        processes.renewed term system i index registrations) ∨
      (∃ i index, processes.timed term system action registrations =
        processes.freed system i index registrations) ∨
      processes.timed term system action registrations =
        { system with registrations := registrations } := by
  cases action with
  | setId i =>
      simp only [timed]
      split
      · exact Or.inl ⟨_, _, rfl⟩
      · exact Or.inr (Or.inr rfl)
  | unregister i =>
      simp only [timed]
      split
      · exact Or.inr (Or.inl ⟨_, _, rfl⟩)
      · exact Or.inr (Or.inr rfl)
  | crash i | expire i index | handle key => exact Or.inr (Or.inr rfl)

/-- Whatever a command does to the deadlines, no time passes. -/
theorem timed_keeps (action : RegistryAction ι) :
    (processes.timed term system action registrations).registrations = registrations ∧
      (processes.timed term system action registrations).now = system.now := by
  rcases timed_cases term system action registrations with
    ⟨i, index, equal⟩ | ⟨i, index, equal⟩ | equal
  all_goals
    rw [equal]
    exact ⟨rfl, rfl⟩

theorem timed_setId (notTaken : ∀ index, system.registrations.place i ≠ .taken index) :
    processes.timed term system (.setId i) registrations =
      { system with registrations := registrations } := by
  rw [timed]
  split
  · rename_i index isTaken
    exact absurd isTaken (notTaken index)
  · rfl

theorem written_timed_unregister :
    (processes.timed term system (.unregister i) registrations).written = system.written := by
  rw [timed]
  split
  · rfl
  · rfl

/-! ## One command -/

variable {before next : Registrations ι}

theorem events_setIdStep (stepped : processes.setIdStep before i = some next) :
    next.events = before.events := by
  cases isPlace : before.place i with
  | outside =>
      simp only [setIdStep, isPlace] at stepped
      split_ifs at stepped
      cases stepped
      rfl
  | locked | taken index =>
      simp only [setIdStep, isPlace] at stepped
      cases stepped
      rfl
  | scanned presenceKeys =>
      simp only [setIdStep, isPlace] at stepped
      split at stepped
      · cases stepped
        rfl
      · cases stepped
        rfl
  | read uuidList =>
      simp only [setIdStep, isPlace] at stepped
      split at stepped
      · cases stepped
        rfl
      · cases stepped
        rfl
  | listed uuidList hash =>
      simp only [setIdStep, isPlace] at stepped
      cases stepped
      split_ifs
      · rfl
      · rfl
  | trying index =>
      simp only [setIdStep, isPlace] at stepped
      cases stepped
      rfl
  | running | reusing | leaving | gone =>
      simp only [setIdStep, isPlace] at stepped
      cases stepped

/-- A process takes a command of `SetId` only where it is not known yet. -/
theorem not_known_of_setIdStep (stepped : processes.setIdStep before i = some next)
    (index : Nat) : ¬ before.Known i index := by
  rintro (running | gone)
  · rw [setIdStep, running] at stepped
    cases stepped
  · rw [setIdStep, gone] at stepped
    cases stepped

/-- `SetId` writes the presence with its last command, and no command before it writes a
presence or comes to where the process runs. -/
theorem setIdStep_presence (stepped : processes.setIdStep before i = some next) :
    (∃ index, before.place i = .taken index ∧
        next.db = set before.db (processes.presence i index) (processes.uuid i) ∧
        next.place = Function.update before.place i (.running index)) ∨
      (∀ index, before.place i ≠ .taken index) ∧
        (∀ j index, next.db.lookup (processes.presence j index) =
          before.db.lookup (processes.presence j index)) ∧
        ∃ place, (∀ index, place ≠ .running index) ∧
          next.place = Function.update before.place i place := by
  by_cases isTaken : ∃ index, before.place i = .taken index
  · left
    rcases isTaken with ⟨index, isTaken⟩
    simp only [setIdStep, isTaken] at stepped
    cases stepped
    exact ⟨index, isTaken, rfl, rfl⟩
  · right
    have notTaken (index : Nat) : before.place i ≠ .taken index := fun taken =>
      isTaken ⟨index, taken⟩
    refine ⟨notTaken, ?_⟩
    rcases setIdStep_cases stepped with ⟨place, none, db, places⟩ |
      ⟨_, _, place, _, none, db, places⟩ | ⟨index, _, db, places⟩ | ⟨index, taken, _, _⟩
    · refine ⟨fun j index => by rw [db], place, ?_, places⟩
      exact fun index running => none index (Or.inr running)
    · refine ⟨fun j index => ?_, place, ?_, places⟩
      · rw [db]
        exact lookup_hdelAll_of_ne (presence_ne_hashKey j i index).symm _
      · exact fun index running => none index (Or.inr running)
    · refine ⟨fun j other => ?_, _, ?_, places⟩
      · rw [db]
        exact lookup_hset_of_ne _ (presence_ne_hashKey j i other).symm _
      · exact fun other running => Place.noConfusion running
    · exact absurd taken (notTaken index)

/-- What is known of the other processes does not change. -/
theorem known_of_update {place : Place} (isOther : j ≠ i)
    (places : next.place = Function.update before.place i place) :
    next.Known j index ↔ before.Known j index := by
  rw [Registrations.Known, Registrations.Known, places, Function.update_of_ne isOther]

/-- The commands of `SetId` date what they write. -/
theorem Dated.setId (dated : processes.Dated term system)
    (stepped : processes.setIdStep system.registrations i = some registrations) :
    processes.Dated term (processes.timed term system (.setId i) registrations) := by
  have unknown := not_known_of_setIdStep stepped
  have events := events_setIdStep stepped
  rcases setIdStep_presence stepped with ⟨index, isTaken, written, places⟩ |
    ⟨notTaken, presences, place, _, places⟩
  · simp only [timed, isTaken]
    apply dated.renewed (fun other known => absurd known (unknown other)) events written
    · rw [places, Function.update_self]
    · intro j isOther
      rw [places, Function.update_of_ne isOther]
  · rw [timed_setId notTaken]
    apply dated.kept (fun key member => events ▸ member) presences
    intro j index known
    apply (known_of_update _ places).mpr known
    rintro rfl
    exact unknown index known

omit [DecidableEq ι] in
/-- A process that runs with an index is known with no other one. -/
theorem eq_of_known (runs : before.place i = .running index) (known : before.Known i other) :
    other = index := by
  rcases known with running | gone
  · cases runs.symm.trans running
    rfl
  · cases runs.symm.trans gone

/-- The commands of `Unregister` take away the presence with its deadline. -/
theorem Dated.unregister (dated : processes.Dated term system)
    (stepped : processes.unregisterStep system.registrations i = some registrations) :
    processes.Dated term (processes.timed term system (.unregister i) registrations) := by
  have others (place : Place) (db : Db) (j : ι) (other : Nat) (isOther : j ≠ i)
      (known : system.registrations.Known j other) :
      Registrations.Known { moved system.registrations i place with db := db } j other :=
    (known_of_update isOther rfl).mpr known
  cases isPlace : system.registrations.place i with
  | running index =>
      simp only [unregisterStep, isPlace] at stepped
      cases stepped
      simp only [timed, isPlace]
      apply dated.freed
      · exact fun key member => Or.inl member
      · rfl
      · intro owner j other sameService differs known
        apply others _ _ _ _ _ known
        rintro rfl
        cases eq_of_known isPlace known
        apply differs
        rw [presence, presence, fId, fId, sameService]
  | leaving index =>
      simp only [unregisterStep, isPlace] at stepped
      cases stepped
      simp only [timed, isPlace]
      apply dated.kept
      · exact fun key member => member
      · exact fun j other => lookup_hdel_of_ne _ (presence_ne_hashKey j i other).symm _
      · intro j other known
        by_cases isOwn : j = i
        · subst isOwn
          exact Or.inr (place_moved ..)
        · exact others _ _ _ _ isOwn known
  | outside | locked | scanned | read | listed | trying | taken | reusing | gone =>
      simp only [unregisterStep, isPlace] at stepped
      cases stepped

/-- The commands keep the presences dated. -/
theorem Dated.act {action : RegistryAction ι} (dated : processes.Dated term system)
    (notExpire : ∀ i index, action ≠ .expire i index)
    (acted : processes.registryStep system.registrations action = some registrations) :
    processes.Dated term (processes.timed term system action registrations) := by
  cases action with
  | setId i => exact dated.setId acted
  | unregister i => exact dated.unregister acted
  | crash i =>
      cases acted
      apply dated.kept
      · exact fun key member => member
      · exact fun _ _ => rfl
      · intro j other known
        by_cases isOwn : j = i
        · subst isOwn
          exact Or.inr (place_moved ..)
        · exact (known_of_update isOwn rfl).mpr known
  | expire i index => exact absurd rfl (notExpire i index)
  | handle key =>
      simp only [registryStep] at acted
      split_ifs at acted with isEvent
      cases acted
      rcases dated.events key isEvent with ⟨i, index, rfl⟩
      apply dated.kept
      · exact fun _ member => List.mem_of_mem_erase member
      · intro j other
        rw [processExpiredKey_presence]
        exact lookup_hdel_of_ne _ (presence_ne_hashKey j i other).symm _
      · exact fun _ _ known => known

/-- Every step keeps the presences dated. -/
theorem Dated.step {action : TimedRegistryAction ι} {next : TimedRegistrations ι}
    (dated : processes.Dated term system)
    (stepped : processes.timedStep term system action = some next) :
    processes.Dated term next := by
  cases action with
  | act action =>
      rcases timedStep_act_cases stepped with ⟨i, index, rfl, _, rfl⟩ |
        ⟨notExpire, registrations, acted, rfl⟩
      · apply dated.freed
        · exact fun key member => (List.mem_append.mp member).imp_right List.mem_singleton.mp
        · rfl
        · exact fun _ _ _ _ _ known => known
      · exact dated.act notExpire acted
  | resetTtl i =>
      rcases timedStep_resetTtl stepped with ⟨index, runs, rfl⟩
      exact dated.renewed (fun other => eq_of_known runs) rfl rfl runs fun _ _ => rfl
  | wait duration =>
      cases stepped
      exact ⟨dated.events, dated.dated, dated.owned⟩

omit [DecidableEq ι] in
/-- A presence lapses one lifetime after its process has written it. -/
theorem Dated.lapsed_iff (dated : processes.Dated term system)
    (found : get system.registrations.db (processes.presence j index) = some (processes.uuid i)) :
    system.Lapsed (processes.presence j index) ↔ system.written i + term ≤ system.now := by
  simp [TimedRegistrations.Lapsed, (dated.dated i j index found).2.2.2]

omit [DecidableEq ι] in
theorem Dated.truthful (dated : processes.Dated term system) :
    processes.Truthful term system := by
  intro i j index found notLapsed
  rcases dated.dated i j index found with ⟨sameService, known, isIndex, _⟩
  refine ⟨sameService, known, isIndex, ?_⟩
  rwa [dated.lapsed_iff found, Nat.not_le] at notLapsed

/-! ## Processes that run -/

/-- A process that runs after a command has run before it, or has just written its presence. -/
theorem written_timed {action : RegistryAction ι}
    (notExpire : ∀ i index, action ≠ .expire i index)
    (acted : processes.registryStep system.registrations action = some registrations)
    (running : registrations.place j = .running index) :
    (processes.timed term system action registrations).written j = system.now ∨
      system.registrations.place j = .running index ∧
        (processes.timed term system action registrations).written j = system.written j := by
  have moves {place : Place} (notRunning : place ≠ .running index) {i : ι}
      (places : registrations.place = Function.update system.registrations.place i place) :
      system.registrations.place j = .running index := by
    by_cases isOwn : j = i
    · rw [places, isOwn, Function.update_self] at running
      exact absurd running notRunning
    · rwa [places, Function.update_of_ne isOwn] at running
  cases action with
  | setId i =>
      rcases setIdStep_presence acted with ⟨taken, isTaken, _, places⟩ |
        ⟨notTaken, _, place, notRunning, places⟩
      · simp only [timed, isTaken]
        rw [written_renewed]
        split_ifs with isOwn
        · exact Or.inl rfl
        · rw [places, Function.update_of_ne isOwn] at running
          exact Or.inr ⟨running, rfl⟩
      · rw [timed_setId notTaken]
        exact Or.inr ⟨moves (notRunning index) places, rfl⟩
  | unregister i =>
      rw [written_timed_unregister]
      simp only [registryStep, unregisterStep] at acted
      split at acted
      · rename_i other _
        cases acted
        exact Or.inr ⟨@moves (.leaving other) (fun same => Place.noConfusion same) i rfl, rfl⟩
      · cases acted
        exact Or.inr ⟨@moves .gone (fun same => Place.noConfusion same) i rfl, rfl⟩
      · cases acted
  | crash i =>
      cases acted
      exact Or.inr ⟨@moves .gone (fun same => Place.noConfusion same) i rfl, rfl⟩
  | expire i other => exact absurd rfl (notExpire i other)
  | handle key =>
      simp only [registryStep] at acted
      split_ifs at acted
      cases acted
      exact Or.inr ⟨running, rfl⟩

/-- The invariant of the registrations in time. -/
structure TimedInvariant (processes : Processes ι) (term : Nat) (system : TimedRegistrations ι) :
    Prop where
  registry : RegistryInvariant processes system.registrations
  dated : processes.Dated term system

omit [DecidableEq ι] in
/-- Who runs is in the registry for one lifetime. -/
theorem TimedInvariant.registered_iff (invariant : TimedInvariant processes term system) :
    processes.Registered system ↔ processes.UniqueIds system.registrations ∧
      ∀ i index, system.registrations.place i = .running index →
        system.now < system.written i + term := by
  constructor
  · rintro ⟨unique, present⟩
    refine ⟨unique, fun i index running => ?_⟩
    rcases present i index running with ⟨found, notLapsed⟩
    rwa [invariant.dated.lapsed_iff found, Nat.not_le] at notLapsed
  · rintro ⟨unique, current⟩
    refine ⟨unique, fun i index running => ?_⟩
    have found := invariant.registry.presence i index running
    refine ⟨found, ?_⟩
    rw [invariant.dated.lapsed_iff found, Nat.not_le]
    exact current i index running

/-- A presence that has lapsed is that of a process that has ended, and the step is one of
the registrations. -/
theorem TimedInvariant.expires (invariant : TimedInvariant processes term system)
    (registered : processes.Registered system)
    (lapsed : system.Lapsed (processes.presence i index)) :
    ∃ owner, processes.registryStep system.registrations (.expire owner index) =
      some { system.registrations with
        db := del system.registrations.db [processes.presence i index]
        events := system.registrations.events ++ [processes.presence i index] } := by
  have isLapsed := lapsed
  rcases lapsed with ⟨deadline, isDeadline, _⟩
  rcases invariant.dated.owned _ deadline isDeadline with ⟨owner, other, same, found⟩
  rcases presence_injective same with ⟨_, rfl⟩
  refine ⟨owner, ?_⟩
  rcases (invariant.dated.dated _ _ _ found).2.1 with running | gone
  · rw [same] at isLapsed
    exact absurd isLapsed (registered.present owner index running).2
  · simp only [registryStep, gone]
    rw [← same, if_pos found]

/-- Every step keeps the invariant. -/
theorem TimedInvariant.step {action : TimedRegistryAction ι} {next : TimedRegistrations ι}
    (literal : ∀ i, Literal (processes.service i))
    (invariant : TimedInvariant processes term system) (registered : processes.Registered system)
    (stepped : processes.timedStep term system action = some next) :
    TimedInvariant processes term next := by
  constructor
  · cases action with
    | act action =>
        rcases timedStep_act_cases stepped with ⟨i, index, rfl, lapsed, rfl⟩ |
          ⟨_, registrations, acted, rfl⟩
        · rcases invariant.expires registered lapsed with ⟨owner, acted⟩
          exact invariant.registry.step literal registered.unique acted
        · rw [(timed_keeps action).1]
          exact invariant.registry.step literal registered.unique acted
    | resetTtl i =>
        rcases timedStep_resetTtl stepped with ⟨index, runs, rfl⟩
        apply invariant.registry.stays
        · intro j other running
          by_cases same : processes.presence j other = processes.presence i index
          · rw [same, get_set, ← same, invariant.registry.presence j other running]
            rcases presence_injective same with ⟨sameService, rfl⟩
            rw [registered.unique.eq_of_holds sameService (Or.inr running) (Or.inr runs)]
          · exact get_congr (lookup_set_of_ne _ same _)
        · exact invariant.registry.events
    | wait duration =>
        cases stepped
        exact invariant.registry
  · exact invariant.dated.step stepped

/-- A step leads to unique ids exactly if it spares the others. -/
theorem TimedInvariant.uniqueIds_iff {action : TimedRegistryAction ι}
    {next : TimedRegistrations ι} (invariant : TimedInvariant processes term system)
    (registered : processes.Registered system)
    (stepped : processes.timedStep term system action = some next) :
    processes.UniqueIds next.registrations ↔ processes.SparesOthers system action := by
  cases action with
  | act action =>
      rcases timedStep_act_cases stepped with ⟨i, index, rfl, lapsed, rfl⟩ |
        ⟨_, registrations, acted, rfl⟩
      · rcases invariant.expires registered lapsed with ⟨owner, acted⟩
        exact uniqueIds_step_iff invariant.registry registered.unique acted
      · rw [(timed_keeps action).1]
        exact uniqueIds_step_iff invariant.registry registered.unique acted
  | resetTtl i =>
      rcases timedStep_resetTtl stepped with ⟨index, runs, rfl⟩
      apply iff_of_true
      · apply registered.unique.kept
        · exact fun _ _ holds => holds
        · exact fun j other _ =>
            hget_congr (lookup_set_of_ne _ (presence_ne_hashKey i j index) _) _
      · trivial
  | wait duration =>
      cases stepped
      exact iff_of_true registered.unique trivial

/-- A step leaves those that run in their lifetime exactly if it does not wait too long. -/
theorem TimedInvariant.inTime_iff {action : TimedRegistryAction ι}
    {next : TimedRegistrations ι} (positive : 0 < term)
    (invariant : TimedInvariant processes term system) (registered : processes.Registered system)
    (stepped : processes.timedStep term system action = some next) :
    (∀ i index, next.registrations.place i = .running index →
      next.now < next.written i + term) ↔ InTime term system action := by
  have current := (invariant.registered_iff.mp registered).2
  have justWritten : system.now < system.now + term := Nat.lt_add_of_pos_right positive
  cases action with
  | act action =>
      apply iff_of_true _ trivial
      rcases timedStep_act_cases stepped with ⟨i, index, rfl, lapsed, rfl⟩ |
        ⟨notExpire, registrations, acted, rfl⟩
      · exact current
      · intro j other running
        rw [(timed_keeps action).1] at running
        rw [(timed_keeps action).2]
        rcases @written_timed _ _ _ term _ _ _ _ _ notExpire acted running with
          written | ⟨wasRunning, written⟩
        · rwa [written]
        · rw [written]
          exact current j other wasRunning
  | resetTtl i =>
      apply iff_of_true _ trivial
      rcases timedStep_resetTtl stepped with ⟨index, runs, rfl⟩
      intro j other running
      change system.now < _ + term
      rw [written_renewed]
      split_ifs
      · exact justWritten
      · exact current j other running
  | wait duration =>
      cases stepped
      constructor
      · intro inTime i runs
        rcases Place.runs_iff.mp runs with ⟨index, running⟩
        exact inTime i index running
      · intro inTime i index running
        exact inTime i (Place.runs_iff.mpr ⟨index, running⟩)

/-- An action that is refused deletes no index. -/
theorem sparesOthers_of_refused {action : TimedRegistryAction ι}
    (refused : processes.timedStep term system action = none) :
    InTime term system action ∧ processes.SparesOthers system action := by
  cases action with
  | act action =>
      refine ⟨trivial, ?_⟩
      cases action with
      | unregister i =>
          intro index isLeaving
          simp [timedStep, accessed, registryStep, unregisterStep, isLeaving] at refused
      | handle key =>
          intro isEvent
          simp [timedStep, accessed, registryStep, isEvent] at refused
      | setId i | crash i | expire i index => trivial
  | resetTtl i => exact ⟨trivial, trivial⟩
  | wait duration => cases refused

/-! ## Runs -/

/-- What is there at the start: processes that have not started, processes that have ended,
and their presences, each with its deadline. -/
structure LeftBehind (processes : Processes ι) (term : Nat) (start : TimedRegistrations ι) :
    Prop where
  places : ∀ i, start.registrations.place i = .outside ∨ start.registrations.place i = .gone
  lock : start.registrations.lock = none
  dated : processes.Dated term start

omit [DecidableEq ι] in
theorem LeftBehind.not_running {start : TimedRegistrations ι}
    (leftBehind : LeftBehind processes term start) (i : ι) (index : Nat) :
    start.registrations.place i ≠ .taken index ∧ start.registrations.place i ≠ .running index := by
  rcases leftBehind.places i with outside | gone
  · simp [outside]
  · simp [gone]

omit [DecidableEq ι] in
theorem LeftBehind.invariant {start : TimedRegistrations ι}
    (leftBehind : LeftBehind processes term start) : TimedInvariant processes term start := by
  have notInSection (i : ι) : ¬ (start.registrations.place i).InSection := by
    rcases leftBehind.places i with outside | gone
    · exact outside ▸ id
    · exact gone ▸ id
  constructor
  · constructor
    · exact fun i inside => absurd inside (notInSection i)
    · exact fun i index running => absurd running (leftBehind.not_running i index).2
    · exact fun i j index running => absurd running (leftBehind.not_running j index).2
    · exact leftBehind.dated.events
  · exact leftBehind.dated

end Processes

open Processes

variable {ι : Type} [DecidableEq ι]

/-- Where the service names are taken literally in the pattern for presence keys, the
processes that run are in the registry with unique ids at every moment of a run, if and
only if the turns of the timers come in time and no index is given again before
`Unregister` or the controller deletes it. -/
theorem always_registered_iff (processes : Processes ι)
    (literal : ∀ i, Literal (processes.service i)) {term : Nat} (positive : 0 < term)
    {start : TimedRegistrations ι} (leftBehind : LeftBehind processes term start)
    (actions : List (TimedRegistryAction ι)) :
    Always (processes.timedStep term) processes.Registered start actions ↔
      Meets (processes.timedStep term)
        (fun system action => InTime term system action ∧ processes.SparesOthers system action)
        start actions := by
  have invariant : TimedInvariant processes term start := leftBehind.invariant
  apply @always_iff_meets _ _ (processes.timedStep term) _ (TimedInvariant processes term)
  · exact fun invariant registered stepped => invariant.step literal registered stepped
  · intro system action next invariant registered stepped
    rw [(invariant.step literal registered stepped).registered_iff,
      invariant.uniqueIds_iff registered stepped, invariant.inTime_iff positive registered stepped,
      and_comm]
  · exact sparesOthers_of_refused
  · exact invariant
  · rw [invariant.registered_iff]
    constructor
    · apply uniqueIds_iff.mpr
      rintro i index (taken | running)
      · exact absurd taken (leftBehind.not_running i index).1
      · exact absurd running (leftBehind.not_running i index).2
    · exact fun i index running => absurd running (leftBehind.not_running i index).2

instance [Fintype ι] (term : Nat) (system : TimedRegistrations ι) :
    DecidablePred (InTime term system)
  | .wait duration =>
      inferInstanceAs (Decidable (∀ i, (system.registrations.place i).Runs →
        system.now + duration < system.written i + term))
  | .act _ | .resetTtl _ => .isTrue trivial

instance [Fintype ι] (processes : Processes ι) (system : TimedRegistrations ι) :
    DecidablePred (processes.SparesOthers system)
  | .act action => inferInstanceAs (Decidable (processes.NotGivenAgain system.registrations action))
  | .resetTtl _ | .wait _ => .isTrue trivial

/-- Two processes take their indices and keep their presences of 5 s. The second one stops
after 6 s, and the first one goes on. -/
def timelyActions (i j : ι) : List (TimedRegistryAction ι) :=
  List.replicate 7 (.act (.setId i)) ++ [.wait 2] ++ List.replicate 8 (.act (.setId j)) ++
    [.wait 2, .resetTtl i, .wait 2, .resetTtl j, .act (.unregister j), .act (.unregister j),
      .wait 2, .resetTtl i, .wait 4]

/-- No process has started at the time 0, and the registry is empty. -/
def timedStart : TimedRegistrations (Fin 3) where
  registrations := unstarted ∅
  deadline := fun _ => none
  written := fun _ => 0
  index := fun _ => 0
  now := 0

theorem leftBehind_timedStart : LeftBehind samplers 5 timedStart where
  places := fun _ => Or.inl rfl
  lock := rfl
  dated := by
    constructor
    · exact fun _ member => by cases member
    · exact fun _ _ _ found => by cases found
    · exact fun _ _ isDeadline => by cases isDeadline

theorem always_registered_timely :
    Always (samplers.timedStep 5) samplers.Registered timedStart (timelyActions 0 1) ∧
      (run (samplers.timedStep 5) timedStart (timelyActions 0 1)).map (fun last =>
        ((last.registrations.place 0).held, (last.registrations.place 1).held)) =
          some (some 0, none) :=
  ⟨(always_registered_iff samplers literal_samplers (by decide) leftBehind_timedStart
    (timelyActions 0 1)).mpr (by decide +kernel), by decide +kernel⟩

/-- In every run, what is seen of a presence has been written less than a lifetime ago. -/
theorem always_truthful (processes : Processes ι) {term : Nat} {start : TimedRegistrations ι}
    (leftBehind : LeftBehind processes term start) (actions : List (TimedRegistryAction ι)) :
    Always (processes.timedStep term) (processes.Truthful term) start actions := by
  apply @always_of_invariant _ _ _ (fun _ _ => True) (processes.Dated term)
  · exact fun dated _ stepped => dated.step stepped
  · exact Dated.truthful
  · exact leftBehind.dated
  · exact meets_of_forall (fun _ _ => trivial) start actions

theorem always_truthful_timely :
    Always (samplers.timedStep 5) (samplers.Truthful 5) timedStart (timelyActions 0 1) :=
  always_truthful samplers leftBehind_timedStart (timelyActions 0 1)

end NestDaq.Controller
