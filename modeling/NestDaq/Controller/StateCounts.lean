import Mathlib.Algebra.GroupWithZero.Nat
import NestDaq.Controller.Polling

/-!
# Counted states

What the summary of a poll says about each service: the state and the update time of its
instances as the poll has read them, the number of instances in each state, and the latest
update. A text that is no name of a state ends the poller.
-/

namespace NestDaq.Controller

open NestDaq.Plugin
open NestDaq.Registry
open NestDaq.Store
open NestDaq.Transition

/-- What a poll has read of an instance that it found. An instance that has gone in between
has an undefined state. -/
def Poll.entryOf (poll : Poll) (inst : Registered) : InstanceState where
  state := (Store.get poll.stateValues inst.stateKey).getD "UNDEFINED".toList
  date :=
    if inst.key updateTimePrefix ∈ poll.updateTimeScan then
      (Store.get poll.updateTimeValues (inst.key updateTimePrefix)).getD []
    else []

/-- The entry is of a state or of none. -/
def InstanceState.Named (inst : InstanceState) : Prop :=
  inst.state = [] ∨ inst.state ∈ stateNames

/-- The counts and the date of a service are those of the entries. -/
structure Tally (entries : List InstanceState) (ss : ServiceState) : Prop where
  named : ∀ inst ∈ entries, inst.Named
  length : ss.counts.length = nStates
  counts : ∀ i < nStates,
    ss.counts[i]? = some (entries.countP fun inst => getState inst.state = some i)
  sum : ss.counts.sum = entries.countP fun inst => inst.state ≠ []
  latest : ∀ inst ∈ entries, inst.date ≤ ss.date
  attained : ss.date = [] ∨ ∃ inst ∈ entries, inst.date = ss.date

/-- The instances of the table are the registered ones with what was read of them, and each
service counts its own. -/
structure Summarises (poll : Poll) (registered : Set Registered) (table : SummaryTable) :
    Prop where
  instances : ∀ pair entry, instanceIn table pair = some entry ↔
    ∃ inst ∈ registered, inst.pair = pair ∧ poll.entryOf inst = entry
  tally : ∀ service summary, table.lookup service = some summary →
    Tally ((ordered summary.instances).map Prod.snd) summary

section Names

variable {state : Text} {i : Nat}

theorem getState_isSome_iff : (getState state).isSome ↔ state ∈ stateNames := by
  rw [getState, List.findIdx?_isSome, List.any_eq_true]
  simp only [decide_eq_true_eq, exists_eq_right]

theorem lt_of_getState (named : getState state = some i) : i < nStates :=
  (List.findIdx?_eq_some_iff_getElem.mp named).1

/-- An empty text is no name of a state. -/
theorem getState_nil : getState [] = none := by
  decide

end Names

/-! ## Counting -/

section Counting

variable {entries : List InstanceState} {ss next : ServiceState}

theorem sum_modify {counts : List Nat} {i : Nat} (inside : i < counts.length) :
    (counts.modify i (· + 1)).sum = counts.sum + 1 := by
  induction counts generalizing i with
  | nil => cases inside
  | cons count rest inductionHypothesis =>
      cases i with
      | zero => simp [Nat.add_right_comm]
      | succ i =>
          rw [List.modify_succ_cons, List.sum_cons, List.sum_cons,
            inductionHypothesis (Nat.lt_of_succ_lt_succ inside), Nat.add_assoc]

theorem Tally.start (ss : ServiceState) (noDate : ss.date = []) (noCounts : ss.counts = []) :
    Tally [] { ss with counts := ss.counts.takeD nStates 0 } := by
  rw [noCounts, List.takeD_nil]
  constructor
  · intro inst member
    cases member
  · exact List.length_replicate
  · intro i inside
    simp only [List.getElem?_replicate, inside, if_true, List.countP_nil]
  · simp
  · intro inst member
    cases member
  · exact Or.inl noDate

/-- One more entry is counted. -/
theorem Tally.step (tally : Tally entries ss) {inst : InstanceState}
    (counted : countInstance ss inst = some next) : Tally (entries ++ [inst]) next := by
  rcases countInstance_eq_some_iff.mp counted with ⟨named, rfl⟩
  have date {other : InstanceState} (member : other ∈ entries ++ [inst]) :
      other ∈ entries ∨ other = inst := by
    rcases List.mem_append.mp member with old | new
    · exact Or.inl old
    · exact Or.inr (List.mem_singleton.mp new)
  constructor
  · intro other member
    rcases date member with old | rfl
    · exact tally.named other old
    · exact named.imp_right getState_isSome_iff.mp
  · cases getState inst.state with
    | none => exact tally.length
    | some istate => exact (List.length_modify _ _ _).trans tally.length
  · intro i inside
    rw [List.countP_append]
    cases isState : getState inst.state with
    | none => simpa [isState] using tally.counts i inside
    | some istate =>
        rw [Option.elim_some, List.getElem?_modify, tally.counts i inside]
        by_cases same : istate = i
        · simp [same, isState]
        · simp [same, isState]
  · rw [List.countP_append]
    cases isState : getState inst.state with
    | none =>
        have noState : inst.state = [] := by
          rcases named with none | some
          · exact none
          · rw [isState] at some
            cases some
        simpa [noState] using tally.sum
    | some istate =>
        have hasState : inst.state ≠ [] := by
          intro none
          rw [none, getState_nil] at isState
          cases isState
        have inside : istate < ss.counts.length := by
          rw [tally.length]
          exact lt_of_getState isState
        rw [Option.elim_some, sum_modify inside, tally.sum]
        simp [hasState]
  · intro other member
    rcases date member with old | rfl
    · exact (tally.latest other old).trans (le_max_left _ _)
    · exact le_max_right _ _
  · rcases le_total ss.date inst.date with later | earlier
    · right
      exists inst
      exact ⟨List.mem_append_right _ List.mem_cons_self, (max_eq_right later).symm⟩
    · simp only [max_eq_left earlier]
      rcases tally.attained with none | ⟨other, member, same⟩
      · exact Or.inl none
      · exact Or.inr ⟨other, List.mem_append_left _ member, same⟩

/-- All entries are counted, one after the other. -/
theorem Tally.foldlM {others : List InstanceState} (tally : Tally entries ss)
    (counted : others.foldlM countInstance ss = some next) : Tally (entries ++ others) next := by
  induction others generalizing entries ss with
  | nil =>
      cases counted
      rwa [List.append_nil]
  | cons inst rest inductionHypothesis =>
      rw [List.foldlM_cons, Option.bind_eq_bind, Option.bind_eq_some_iff] at counted
      rcases counted with ⟨middle, first, last⟩
      rw [List.append_cons]
      exact inductionHypothesis (tally.step first) last

/-- A service with a named state in each entry can be counted. -/
theorem exists_countService
    (named : ∀ name inst, ss.instances.lookup name = some inst → inst.Named) :
    (countService ss).isSome := by
  have counts {before : ServiceState} {inst : InstanceState}
      (member : inst ∈ (ordered ss.instances).map Prod.snd) :
      ∃ next, countInstance before inst = some next ∧ True := by
    rcases List.mem_map.mp member with ⟨⟨name, entry⟩, inInstances, rfl⟩
    have isNamed := named name entry (mem_ordered.mp inInstances)
    exact ⟨_, countInstance_eq_some_iff.mpr ⟨isNamed.imp_right getState_isSome_iff.mpr, rfl⟩,
      True.intro⟩
  rcases @exists_foldlM _ _ countInstance (fun _ => True) _ _ (fun member _ => counts member)
    True.intro with ⟨last, folded, -⟩
  exact Option.isSome_of_mem folded

/-- A table can be counted if each of its services can. -/
theorem exists_countServices {table : SummaryTable}
    (each : ∀ service ss, table.lookup service = some ss → (countService ss).isSome) :
    (countServices table).isSome := by
  rw [countServices_eq]
  have single (service : Text) :
      (run (follow fun (item : Text × ServiceState) _ => countService item.2)
        (table.lookup service) (updatesOf Prod.fst service (ordered table))).isSome := by
    cases found : table.lookup service with
    | none => rw [updatesOf_ordered_of_none found, run_nil, Option.isSome_some]
    | some ss =>
        rw [updatesOf_ordered_of_some found]
        rcases Option.isSome_iff_exists.mp (each service ss found) with ⟨counted, isCounted⟩
        simp [run, follow, isCounted]
  rcases exists_run_update single with ⟨result, ran⟩
  exact Option.isSome_of_mem ran

end Counting

/-! ## Polls with names without separators -/

section Polls

variable {gui : WebGui} {poll : Poll} {registered : Set Registered} {table : SummaryTable}

/-- The instances and the keys with update times that a poll finds have names without
separators. -/
structure Poll.NamesApart (poll : Poll) (registered : Set Registered) : Prop where
  states : ∀ inst ∈ registered, inst.Apart
  dates : ∀ inst : Registered, inst.key updateTimePrefix ∈ poll.updateTimeScan → inst.Apart

theorem Registered.eq_of_pair {first second : Registered} (same : first.pair = second.pair) :
    first = second := by
  cases first
  cases second
  cases same
  rfl

/-- Of different keys only one is left of an instance. -/
theorem filter_eq_singleton {keys : List Text} {key : Text} {pair : Text × Text}
    (nodup : keys.Nodup) (member : key ∈ keys) (named : gui.instanceOfKey key = some pair)
    (only : ∀ other ∈ keys, gui.instanceOfKey other = some pair → other = key) :
    keys.filter (gui.instanceOfKey · = some pair) = [key] := by
  apply List.perm_singleton.mp
  apply (List.perm_ext_iff_of_nodup (nodup.filter _) (List.nodup_singleton key)).mpr
  intro other
  rw [List.mem_filter, decide_eq_true_eq, List.mem_singleton]
  constructor
  · rintro ⟨inKeys, names⟩
    exact only other inKeys names
  · rintro rfl
    exact ⟨member, named⟩

/-- What the loops make of a registered instance is what the poll has read of it. -/
theorem instanceIn_pair (separator : gui.fSeparator = colon) (finds : poll.Finds registered)
    (apart : poll.NamesApart registered) (read : gui.readInstances poll = some table)
    {inst : Registered} (member : inst ∈ registered) :
    instanceIn table inst.pair = some (poll.entryOf inst) := by
  have own {suffix : Text} {other : Registered} (isApart : other.Apart)
      (named : gui.instanceOfKey (other.key suffix) = some inst.pair) : other = inst := by
    rw [(instanceOfKey_key_eq_iff separator).mpr isApart] at named
    exact Registered.eq_of_pair (Option.some.inj named)
  have named (suffix : Text) : gui.instanceOfKey (inst.key suffix) = some inst.pair :=
    (instanceOfKey_key_eq_iff separator).mpr (apart.states inst member)
  have states : (scan poll.stateScan (gui.keyPattern fairMQStatePrefix)).filter
      (gui.instanceOfKey · = some inst.pair) = [inst.stateKey] := by
    apply filter_eq_singleton (nodup_scan _ _) _ (named fairMQStatePrefix)
    · intro other found isNamed
      rcases (finds.mem_scan separator).mp found with ⟨otherInst, isRegistered, rfl⟩
      exact congrArg Registered.stateKey (own (apart.states otherInst isRegistered) isNamed)
    · exact (finds.mem_scan separator).mpr ⟨inst, member, rfl⟩
  rw [instanceIn_readInstances read, states, Poll.entryOf]
  split_ifs with dated
  · have dates : (scan poll.updateTimeScan (gui.keyPattern updateTimePrefix)).filter
        (gui.instanceOfKey · = some inst.pair) = [inst.key updateTimePrefix] := by
      apply filter_eq_singleton (nodup_scan _ _) _ (named updateTimePrefix)
      · intro other found isNamed
        rcases (mem_scan _).mp found with ⟨inScan, matched⟩
        rcases (stringmatch_keyPattern_iff separator plain_updateTimePrefix).mp matched with
          ⟨otherInst, rfl⟩
        rw [own (apart.dates otherInst inScan) isNamed]
      · exact (mem_scan _).mpr
          ⟨dated, (stringmatch_keyPattern_iff separator plain_updateTimePrefix).mpr ⟨inst, rfl⟩⟩
    rw [dates]
    cases value : Store.get poll.updateTimeValues (inst.key updateTimePrefix) with
    | none => simp [stateEntry, dateEntry, value]
    | some date => simp [stateEntry, dateEntry, value]
  · have noDates : (scan poll.updateTimeScan (gui.keyPattern updateTimePrefix)).filter
        (gui.instanceOfKey · = some inst.pair) = [] := by
      rw [List.filter_eq_nil_iff]
      intro other found isNamed
      rcases (mem_scan _).mp found with ⟨inScan, matched⟩
      rcases (stringmatch_keyPattern_iff separator plain_updateTimePrefix).mp matched with
        ⟨otherInst, rfl⟩
      rw [own (apart.dates otherInst inScan) (by simpa using isNamed)] at inScan
      exact dated inScan
    rw [noDates]
    rfl

/-- The entries behind the loops are those of the registered instances. -/
theorem instanceIn_eq_some_iff (separator : gui.fSeparator = colon)
    (finds : poll.Finds registered) (apart : poll.NamesApart registered)
    (read : gui.readInstances poll = some table) {pair : Text × Text} {entry : InstanceState} :
    instanceIn table pair = some entry ↔
      ∃ inst ∈ registered, inst.pair = pair ∧ poll.entryOf inst = entry := by
  constructor
  · intro found
    have present : (instanceIn table pair).isSome := Option.isSome_of_mem found
    rw [instanceIn_readInstances read, isSome_foldl_dateEntry, isSome_foldl_stateEntry,
      Option.isSome_none, Bool.false_eq_true, or_false, ne_eq, List.filter_eq_nil_iff] at present
    simp only [not_forall, not_not, decide_eq_true_eq, exists_prop,
      finds.mem_scan separator] at present
    rcases present with ⟨_, ⟨inst, member, rfl⟩, named⟩
    have own : gui.instanceOfKey inst.stateKey = some inst.pair :=
      (instanceOfKey_key_eq_iff separator).mpr (apart.states inst member)
    have same : inst.pair = pair := Option.some.inj (own.symm.trans named)
    subst same
    rw [instanceIn_pair separator finds apart read member] at found
    exact ⟨inst, member, rfl, Option.some.inj found⟩
  · rintro ⟨inst, member, rfl, rfl⟩
    exact instanceIn_pair separator finds apart read member

/-- No service has counts or a date before the third loop. -/
theorem blank_readInstances (read : gui.readInstances poll = some table) {service : Text}
    {ss : ServiceState} (found : table.lookup service = some ss) :
    ss.counts = [] ∧ ss.date = [] := by
  have start : ∀ service ss, (∅ : SummaryTable).lookup service = some ss →
      ss.counts = [] ∧ ss.date = [] := by
    intro service ss inEmpty
    rw [AList.lookup_empty] at inEmpty
    cases inEmpty
  refine @readInstances_invariant gui poll table
    (fun other => ∀ service ss, other.lookup service = some ss → ss.counts = [] ∧ ss.date = [])
    start ?_ read service ss found
  intro before pair inst blank name after entered
  by_cases same : name = pair.1
  · subst same
    rw [enterInstance, AList.lookup_insert] at entered
    cases known : before.lookup pair.1 with
    | none =>
        rw [known] at entered
        cases entered
        exact ⟨rfl, rfl⟩
    | some old =>
        rw [known] at entered
        cases entered
        exact blank pair.1 old known
  · rw [enterInstance, AList.lookup_insert_ne same] at entered
    exact blank name after entered

/-- A poll makes a table exactly if all states that it has read are names of states, and the
table has then for every registered instance what was read of it, and for every service the
numbers of its instances in each state and the latest update among them. -/
theorem summary_of_poll (separator : gui.fSeparator = colon) (finds : poll.Finds registered)
    (apart : poll.NamesApart registered) :
    ((gui.pollState poll).isSome ↔ ∀ inst ∈ registered, (poll.entryOf inst).Named) ∧
      ∀ table, gui.pollState poll = some table → Summarises poll registered table := by
  have summarises (table : SummaryTable) (polled : gui.pollState poll = some table) :
      Summarises poll registered table := by
    rcases (pollState_eq_some_iff separator).mp polled with ⟨read, isRead, counts⟩
    constructor
    · intro pair entry
      rw [instanceIn_countServices counts]
      exact instanceIn_eq_some_iff separator finds apart isRead
    · intro service summary inTable
      cases found : read.lookup service with
      | none =>
          rw [lookup_countServices_of_none counts found] at inTable
          cases inTable
      | some ss =>
          rcases lookup_countServices_of_some counts found with ⟨counted, isCounted, isResult⟩
          rw [isResult] at inTable
          cases inTable
          have blank := blank_readInstances isRead found
          rw [instances_countService isCounted]
          exact (Tally.start ss blank.2 blank.1).foldlM isCounted
  refine ⟨⟨?_, ?_⟩, summarises⟩
  · intro some inst member
    rcases Option.isSome_iff_exists.mp some with ⟨table, polled⟩
    have summary := summarises table polled
    have entry := (summary.instances _ _).mpr ⟨inst, member, rfl, rfl⟩
    rcases Option.bind_eq_some_iff.mp entry with ⟨ss, found, inInstances⟩
    exact (summary.tally _ ss found).named _
      (List.mem_map.mpr ⟨_, mem_ordered.mpr inInstances, rfl⟩)
  · intro named
    rcases exists_readInstances separator poll with ⟨read, isRead⟩
    rw [pollState_eq separator, isRead, Option.bind_some]
    apply exists_countServices
    intro service ss found
    apply exists_countService
    intro name entry inInstances
    have inRead : instanceIn read (service, name) = some entry := by
      rw [instanceIn, found]
      exact inInstances
    rcases (instanceIn_eq_some_iff separator finds apart isRead).mp inRead with
      ⟨inst, member, -, rfl⟩
    exact named inst member

end Polls

/-- Equal keys of a kind are those of equal long names. -/
theorem Registered.longId_of_key {first second : Registered} {suffix : Text}
    (same : first.key suffix = second.key suffix) : first.longId = second.longId := by
  have regroup (inst : Registered) :
      inst.key suffix = topPrefix ++ ':' :: (inst.longId ++ ':' :: suffix) := by
    simp [inst.key_eq, inst.longId_eq]
  rw [regroup, regroup, List.append_cancel_left_eq, List.cons.injEq] at same
  exact List.append_cancel_right same.2

/-- The instances of two services with their states and update times. -/
def fleet : List (Registered × DeviceState × Text) :=
  [(⟨"Sampler".toList, "Sampler-0".toList⟩, .ready, "10:00".toList),
    (⟨"Sampler".toList, "Sampler-1".toList⟩, .running, "10:02".toList),
    (⟨"Sink".toList, "Sink-0".toList⟩, .ready, "10:01".toList),
    (⟨"Sink".toList, "Sink-1".toList⟩, .ready, "10:03".toList)]

/-- Their keys with what is stored at them. -/
def fleetDb (suffix : Text) (text : DeviceState × Text → Text) : Db :=
  fleet.foldl (fun db entry => Store.set db (entry.1.key suffix) (text entry.2)) ∅

/-- A poll that finds them. -/
def fleetPoll : Poll where
  stateScan := fleetDb fairMQStatePrefix fun read => read.1.name
  stateValues := fleetDb fairMQStatePrefix fun read => read.1.name
  updateTimeScan := fleetDb updateTimePrefix Prod.snd
  updateTimeValues := fleetDb updateTimePrefix Prod.snd

theorem mem_fleetDb {suffix key : Text} {text : DeviceState × Text → Text} :
    key ∈ fleetDb suffix text ↔ ∃ inst ∈ fleet.map Prod.fst, inst.key suffix = key := by
  have folded (entries : List (Registered × DeviceState × Text)) (db : Db) :
      key ∈ entries.foldl (fun db entry =>
          Store.set db (entry.1.key suffix) (text entry.2)) db ↔
        key ∈ db ∨ ∃ inst ∈ entries.map Prod.fst, inst.key suffix = key := by
    induction entries generalizing db with
    | nil => simp
    | cons entry rest inductionHypothesis =>
        rw [List.foldl_cons, inductionHypothesis, Store.set, AList.mem_insert,
          or_comm (b := key ∈ db),
          or_assoc]
        simp [eq_comm]
  rw [fleetDb, folded]
  exact or_iff_right (AList.notMem_empty _)

/-- The poll makes a table with what it has read of the instances of both services. -/
theorem summary_of_fleetPoll :
    (∀ entry ∈ fleet, (fleetPoll.entryOf entry.1).state = entry.2.1.name ∧
        (fleetPoll.entryOf entry.1).date = entry.2.2) ∧
      ∃ table, (defaultGui (fun _ => none) samplerText).pollState fleetPoll = some table ∧
        Summarises fleetPoll {inst | inst ∈ fleet.map Prod.fst} table := by
  have entries : ∀ entry ∈ fleet, (fleetPoll.entryOf entry.1).state = entry.2.1.name ∧
      (fleetPoll.entryOf entry.1).date = entry.2.2 := by
    decide +kernel
  have parts : ∀ inst ∈ fleet.map Prod.fst, Part inst.service ∧ Part inst.id := by
    decide
  have finds : fleetPoll.Finds {inst | inst ∈ fleet.map Prod.fst} := fun _ => mem_fleetDb
  have apart : fleetPoll.NamesApart {inst | inst ∈ fleet.map Prod.fst} := by
    constructor
    · exact parts
    · intro inst found
      rcases mem_fleetDb.mp found with ⟨other, member, same⟩
      apply Registered.apart_of_longId (parts other member).1 (parts other member).2
      rw [← other.longId_eq]
      exact Registered.longId_of_key same
  have summary := @summary_of_poll (defaultGui (fun _ => none) samplerText) _ _ rfl finds apart
  have named : ∀ inst ∈ {inst | inst ∈ fleet.map Prod.fst}, (fleetPoll.entryOf inst).Named := by
    intro inst member
    rcases List.mem_map.mp member with ⟨entry, inFleet, rfl⟩
    have names : ∀ entry ∈ fleet, entry.2.1.name ∈ stateNames := by decide
    rw [InstanceState.Named, (entries entry inFleet).1]
    exact Or.inr (names entry inFleet)
  rcases Option.isSome_iff_exists.mp (summary.1.mpr named) with ⟨table, polled⟩
  exact ⟨entries, table, polled, summary.2 table polled⟩

end NestDaq.Controller
