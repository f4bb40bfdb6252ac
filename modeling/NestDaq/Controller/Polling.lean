import NestDaq.Controller.TargetLists
import NestDaq.Controller.Targets
import NestDaq.Registry.Presence
import NestDaq.Text.Split
import NestDaq.Transition.Update

/-!
# Polled states

`PollState` reads the state and the update time of all instances with four reads of the
registry, between which instances come and go, and makes the table of a summary of them.
The service and the instance are the second and the third part of a key, so an instance
with a separator in its name is shown under the front of it.
-/

namespace NestDaq.Controller

open NestDaq.Message
open NestDaq.Plugin
open NestDaq.Registry
open NestDaq.Store
open NestDaq.Transition

/-- `GetState`, which throws for a text that is no name of a state. -/
def getState (state : Text) : Option Nat :=
  stateNames.findIdx? (· = state)

/-- `NStates`. -/
def nStates : Nat :=
  stateNames.length

/-- The entry of an instance of a service. -/
def instanceIn (table : SummaryTable) (pair : Text × Text) : Option InstanceState :=
  (table.lookup pair.1).bind fun ss => ss.instances.lookup pair.2

/-- `summaryTable[serviceName].instances[instName] = inst`. -/
def enterInstance (table : SummaryTable) (pair : Text × Text) (inst : InstanceState) :
    SummaryTable :=
  let ss := (table.lookup pair.1).getD ⟨∅, [], []⟩
  table.insert pair.1 { ss with instances := ss.instances.insert pair.2 inst }

/-- The registry at the four reads of a poll. -/
structure Poll where
  stateScan : Db
  stateValues : Db
  updateTimeScan : Db
  updateTimeValues : Db

namespace WebGui

variable (gui : WebGui)

/-- The pattern of a kind of keys of all instances. -/
def keyPattern (suffix : Text) : Text :=
  Text.join [topPrefix, ['*'], ['*'], suffix] gui.fSeparator

/-- `res[1]` and `res[2]`: the service and the instance of a key. -/
def instanceOfKey (key : Text) : Option (Text × Text) := do
  let res := Text.split key gui.fSeparator
  let serviceName ← res[1]?
  let instName ← res[2]?
  return (serviceName, instName)

/-- The first loop, for one key. -/
def enterState (values : Db) : Step SummaryTable Text :=
  fun table key => (gui.instanceOfKey key).map fun pair =>
    let inst := (instanceIn table pair).getD ⟨[], []⟩
    enterInstance table pair
      { inst with state := (Store.get values key).getD "UNDEFINED".toList }

/-- The second loop, for one key. -/
def enterDate (values : Db) : Step SummaryTable Text :=
  fun table key => (gui.instanceOfKey key).map fun pair =>
    match instanceIn table pair, Store.get values key with
    | some inst, some date => enterInstance table pair { inst with date := date }
    | _, _ => table

end WebGui

/-- The third loop, for one instance of a service. -/
def countInstance : Step ServiceState InstanceState :=
  fun ss inst =>
    (if inst.state = [] then some ss
      else (getState inst.state).map fun istate =>
        { ss with counts := ss.counts.modify istate (· + 1) }).map fun ss =>
      if inst.date ≠ [] ∧ (ss.date = [] ∨ ss.date < inst.date) then { ss with date := inst.date }
      else ss

/-- The third loop, for one service. -/
def countService (ss : ServiceState) : Option ServiceState :=
  ((ordered ss.instances).map Prod.snd).foldlM countInstance
    { ss with counts := ss.counts.takeD nStates 0 }

/-- The third loop. -/
def countServices (table : SummaryTable) : Option SummaryTable :=
  (ordered table).foldlM
    (fun table (sname, ss) => (countService ss).map (table.insert sname)) table

namespace WebGui

variable (gui : WebGui) (poll : Poll)

/-- The loops over the keys that a poll finds. -/
def readInstances : Option SummaryTable := do
  let stateKeys := scan poll.stateScan (gui.keyPattern fairMQStatePrefix)
  let updateTimeKeys := scan poll.updateTimeScan (gui.keyPattern updateTimePrefix)
  let named ← stateKeys.foldlM (gui.enterState poll.stateValues) ∅
  updateTimeKeys.foldlM (gui.enterDate poll.updateTimeValues) named

/-- One turn of `PollState`, up to `SendStateSummary`. -/
def pollState : Option SummaryTable :=
  if scan poll.stateScan (gui.keyPattern fairMQStatePrefix) = [] then some ∅
  else (gui.readInstances poll).bind countServices

end WebGui

section Entries

variable {table : SummaryTable} {pair other : Text × Text} {inst : InstanceState}

theorem instanceIn_enterInstance :
    instanceIn (enterInstance table pair inst) other =
      if other = pair then some inst else instanceIn table other := by
  rcases pair with ⟨service, name⟩
  rcases other with ⟨otherService, otherName⟩
  simp only [Prod.mk.injEq, instanceIn, enterInstance]
  by_cases sameService : otherService = service
  · subst sameService
    rw [AList.lookup_insert, Option.bind_some]
    by_cases sameName : otherName = name
    · subst sameName
      rw [AList.lookup_insert, if_pos ⟨rfl, rfl⟩]
    · rw [AList.lookup_insert_ne sameName, if_neg fun same => sameName same.2]
      cases table.lookup otherService with
      | none => rfl
      | some ss => rfl
  · rw [AList.lookup_insert_ne sameService, if_neg fun same => sameService same.1]

/-- An instance is in the table if it has an entry. -/
theorem mem_instanceSet_iff : pair ∈ instanceSet table ↔ (instanceIn table pair).isSome := by
  cases found : table.lookup pair.1 with
  | none => simp [instanceSet, instanceIn, found]
  | some ss =>
      rw [show pair = (pair.1, pair.2) from rfl, mem_instanceSet found, instanceIn, found,
        Option.bind_some, AList.lookup_isSome]

/-- Entering an instance leaves no service without one. -/
theorem Populated.enterInstance (populated : Populated table) (pair : Text × Text)
    (inst : InstanceState) : Populated (enterInstance table pair inst) := by
  intro service summary found
  by_cases same : service = pair.1
  · subst same
    rw [Controller.enterInstance, AList.lookup_insert] at found
    exists pair.2
    rw [← Option.some.inj found]
    exact (AList.mem_insert _).mpr (Or.inl rfl)
  · rw [Controller.enterInstance, AList.lookup_insert_ne same] at found
    exact populated service summary found

end Entries

/-- `<top>:<service>:<id>:<suffix>`. -/
def Registered.key (inst : Registered) (suffix : Text) : Text :=
  Text.join [topPrefix, inst.service, inst.id, suffix] colon

/-- The service and the id of an instance. -/
def Registered.pair (inst : Registered) : Text × Text :=
  (inst.service, inst.id)

/-- Neither name of the instance has the separator in it. -/
def Registered.Apart (inst : Registered) : Prop :=
  Part inst.service ∧ Part inst.id

section Keys

variable {gui : WebGui} {inst : Registered} {key suffix : Text}

theorem Registered.key_eq (inst : Registered) (suffix : Text) :
    inst.key suffix = topPrefix ++ ':' :: (inst.service ++ ':' :: (inst.id ++ ':' :: suffix)) := by
  simp [Registered.key, colon]

/-- The pattern of a kind of keys matches the keys of that kind. -/
theorem stringmatch_keyPattern_iff (separator : gui.fSeparator = colon)
    (plain : Glob.Plain suffix) :
    Glob.stringmatch (gui.keyPattern suffix) key ↔ ∃ inst : Registered, key = inst.key suffix := by
  have pattern : gui.keyPattern suffix =
      (topPrefix ++ [':']) ++ '*' :: ':' :: '*' :: (':' :: suffix) := by
    simp [WebGui.keyPattern, separator, colon]
  rw [pattern, Glob.stringmatch_plain_append plain_front]
  simp only [Glob.stringmatch_star_cons (show ':' ∉ Glob.special by decide)]
  constructor
  · rintro ⟨rest, rfl, service, behind, rfl, id, tail, rfl, accepted⟩
    rw [(Glob.stringmatch_plain plain tail).mp accepted]
    exact ⟨⟨service, id⟩, by simp [Registered.key_eq]⟩
  · rintro ⟨inst, rfl⟩
    refine ⟨inst.service ++ ':' :: (inst.id ++ ':' :: suffix), ?_, inst.service,
      inst.id ++ ':' :: suffix, rfl, inst.id, suffix, rfl, ?_⟩
    · simp [Registered.key_eq]
    · exact (Glob.stringmatch_plain plain suffix).mpr rfl

/-- The parts of a key behind the first. -/
theorem split_key (inst : Registered) (suffix : Text) :
    Text.split (inst.key suffix) colon = topPrefix ::
      (Text.split inst.service colon ++ (Text.split inst.id colon ++ Text.split suffix colon)) := by
  rw [Registered.key_eq, colon, Text.split_append_cons part_topPrefix,
    Text.split_append_delimiter List.mem_cons_self, Text.split_append_delimiter List.mem_cons_self]

/-- A key of the kind names a service and an instance without separators. -/
theorem exists_instanceOfKey (separator : gui.fSeparator = colon) (inst : Registered)
    (suffix : Text) :
    ∃ pair, gui.instanceOfKey (inst.key suffix) = some pair ∧ Part pair.1 ∧ Part pair.2 := by
  have parts := split_key inst suffix
  have free : ∀ part ∈ Text.split (inst.key suffix) colon, Part part := by
    intro part member inPart
    exact Text.notMem_of_mem_split member inPart List.mem_cons_self
  rcases Text.exists_split_eq_cons inst.service colon with ⟨service, others, isService⟩
  rcases Text.exists_split_eq_cons inst.id colon with ⟨id, rest, isId⟩
  rw [isService, isId] at parts
  simp only [WebGui.instanceOfKey, separator]
  rw [parts] at free ⊢
  cases others with
  | nil =>
      refine ⟨(service, id), rfl, free _ ?_, free _ ?_⟩
      · simp
      · simp
  | cons second others =>
      refine ⟨(service, second), rfl, free _ ?_, free _ ?_⟩
      · simp
      · simp

/-- A key names its own instance unless there is a separator in the names. -/
theorem instanceOfKey_key_eq_iff (separator : gui.fSeparator = colon) :
    gui.instanceOfKey (inst.key suffix) = some inst.pair ↔ inst.Apart := by
  constructor
  · intro own
    rcases exists_instanceOfKey separator inst suffix with ⟨pair, named, parts⟩
    rw [own] at named
    rw [← Option.some.inj named] at parts
    exact parts
  · rintro ⟨servicePart, idPart⟩
    simp only [WebGui.instanceOfKey, separator]
    rw [split_key, colon, Text.split_of_notMem servicePart, Text.split_of_notMem idPart]
    rfl

end Keys

section Loops

variable {gui : WebGui} {values : Db} {keys : List Text} {table result : SummaryTable}

/-- What the first loop makes of the entry of an instance, for a key of it. -/
def stateEntry (values : Db) (entry : Option InstanceState) (key : Text) : Option InstanceState :=
  some { entry.getD ⟨[], []⟩ with state := (Store.get values key).getD "UNDEFINED".toList }

/-- What the second loop makes of the entry of an instance, for a key of it. -/
def dateEntry (values : Db) (entry : Option InstanceState) (key : Text) : Option InstanceState :=
  entry.map fun inst =>
    match Store.get values key with
    | some date => { inst with date := date }
    | none => inst

theorem enterState_eq_some_iff {key : Text} :
    gui.enterState values table key = some result ↔
      ∃ pair, gui.instanceOfKey key = some pair ∧ result = enterInstance table pair
        { (instanceIn table pair).getD ⟨[], []⟩ with
          state := (Store.get values key).getD "UNDEFINED".toList } := by
  simp only [WebGui.enterState, Option.map_eq_some_iff, @eq_comm _ result]

/-- A loop in which each key changes the entry of its own instance: the entry of an instance
follows from the keys of the instance. -/
theorem instanceIn_foldlM {enter : SummaryTable → Text → Option SummaryTable}
    {entry : Option InstanceState → Text → Option InstanceState} {pair : Text × Text}
    (enters : ∀ {table next : SummaryTable} {key : Text}, enter table key = some next →
      ∃ own, gui.instanceOfKey key = some own ∧ instanceIn next pair =
        if pair = own then entry (instanceIn table pair) key else instanceIn table pair)
    (folded : keys.foldlM enter table = some result) :
    instanceIn result pair =
      (keys.filter (gui.instanceOfKey · = some pair)).foldl entry (instanceIn table pair) := by
  induction keys generalizing table with
  | nil =>
      cases folded
      rfl
  | cons key rest inductionHypothesis =>
      rw [List.foldlM_cons, Option.bind_eq_bind, Option.bind_eq_some_iff] at folded
      rcases folded with ⟨next, stepped, folded⟩
      rcases enters stepped with ⟨own, named, entered⟩
      rw [inductionHypothesis folded, entered]
      by_cases same : pair = own
      · subst same
        rw [List.filter_cons_of_pos (by simpa using named), List.foldl_cons, if_pos rfl]
      · rw [List.filter_cons_of_neg _, if_neg same]
        rw [named]
        simpa using Ne.symm same

theorem instanceIn_enterState {key : Text} (pair : Text × Text)
    (stepped : gui.enterState values table key = some result) :
    ∃ own, gui.instanceOfKey key = some own ∧ instanceIn result pair =
      if pair = own then stateEntry values (instanceIn table pair) key
      else instanceIn table pair := by
  rcases enterState_eq_some_iff.mp stepped with ⟨own, named, rfl⟩
  refine ⟨own, named, ?_⟩
  rw [instanceIn_enterInstance]
  split
  · rename_i same
    rw [same, stateEntry]
  · rfl

theorem instanceIn_enterDate {key : Text} (pair : Text × Text)
    (stepped : gui.enterDate values table key = some result) :
    ∃ own, gui.instanceOfKey key = some own ∧ instanceIn result pair =
      if pair = own then dateEntry values (instanceIn table pair) key
      else instanceIn table pair := by
  rcases Option.map_eq_some_iff.mp stepped with ⟨own, named, -⟩
  refine ⟨own, named, ?_⟩
  rw [WebGui.enterDate, named, Option.map_some] at stepped
  cases entry : instanceIn table own with
  | none =>
      simp only [entry] at stepped
      cases stepped
      split
      · rename_i same
        rw [same, entry]
        rfl
      · rfl
  | some inst =>
      cases value : Store.get values key with
      | none =>
          simp only [entry, value] at stepped
          cases stepped
          split
          · rename_i same
            rw [same, entry]
            simp only [dateEntry, value, Option.map_some]
          · rfl
      | some date =>
          simp only [entry, value] at stepped
          cases stepped
          rw [instanceIn_enterInstance]
          split
          · rename_i same
            rw [same, entry]
            simp only [dateEntry, value, Option.map_some]
          · rfl

end Loops

/-! ## The counts -/

section Counts

variable {table result : SummaryTable} {ss counted : ServiceState}

theorem nil_le (date : Text) : [] ≤ date :=
  not_lt.mp (List.not_lt_nil date)

/-- The empty date comes before all others. -/
theorem latest_eq (date other : Text) :
    (if other ≠ [] ∧ (date = [] ∨ date < other) then other else date) = max date other := by
  by_cases isEmpty : other = []
  · subst isEmpty
    rw [if_neg fun both => both.1 rfl]
    exact (max_eq_left (nil_le date)).symm
  · by_cases before : date < other
    · rw [if_pos ⟨isEmpty, Or.inr before⟩, max_eq_right before.le]
    · have notEmpty : date ≠ [] := by
        rintro rfl
        exact before (lt_of_le_of_ne (nil_le other) (Ne.symm isEmpty))
      rw [if_neg fun both => both.2.elim notEmpty before, max_eq_left (not_lt.mp before)]

theorem countInstance_eq_some_iff {inst : InstanceState} :
    countInstance ss inst = some counted ↔
      (inst.state = [] ∨ (getState inst.state).isSome) ∧ counted =
        { ss with
          counts := (getState inst.state).elim ss.counts fun istate =>
            ss.counts.modify istate (· + 1)
          date := max ss.date inst.date } := by
  have dated (other : ServiceState) :
      (if inst.date ≠ [] ∧ (other.date = [] ∨ other.date < inst.date) then
        { other with date := inst.date } else other) =
        { other with date := max other.date inst.date } := by
    rw [← latest_eq]
    split <;> rfl
  simp only [countInstance, dated, Option.map_eq_some_iff]
  by_cases noState : inst.state = []
  · have unnamed : getState [] = none := by decide
    simp [noState, unnamed, eq_comm]
  · cases named : getState inst.state with
    | none => simp [noState]
    | some istate => simp [noState, eq_comm]

/-- Counting leaves the instances of a service as they are. -/
theorem instances_countService (counts : countService ss = some counted) :
    counted.instances = ss.instances := by
  have kept {before after : ServiceState} {inst : InstanceState}
      (same : before.instances = ss.instances)
      (stepped : countInstance before inst = some after) : after.instances = ss.instances := by
    rw [(countInstance_eq_some_iff.mp stepped).2]
    exact same
  exact @foldlM_invariant _ _ _ (fun other => other.instances = ss.instances) _ _ _
    (fun _ same stepped => kept same stepped) rfl counts

theorem countServices_eq (table : SummaryTable) :
    countServices table =
      run (update Prod.fst fun item _ => countService item.2) table (ordered table) :=
  foldlM_eq_run _ _ _

theorem updatesOf_ordered_of_none {service : Text} (absent : table.lookup service = none) :
    updatesOf Prod.fst service (ordered table) = [] := by
  rw [List.eq_nil_iff_forall_not_mem]
  rintro ⟨other, ss⟩ member
  rcases (mem_updatesOf Prod.fst).mp member with ⟨inTable, rfl⟩
  rw [mem_ordered.mp inTable] at absent
  cases absent

theorem updatesOf_ordered_of_some {service : Text} (found : table.lookup service = some ss) :
    updatesOf Prod.fst service (ordered table) = [(service, ss)] :=
  filter_ordered_eq_singleton found (by simp) fun other _ _ same => by simpa using same

/-- A service that is not in the table does not get into it. -/
theorem lookup_countServices_of_none {service : Text} (counts : countServices table = some result)
    (absent : table.lookup service = none) : result.lookup service = none := by
  rw [countServices_eq] at counts
  have followed := run_follow_of_run_update counts service
  rw [updatesOf_ordered_of_none absent, absent] at followed
  exact (Option.some.inj followed).symm

/-- Each service is counted once. -/
theorem lookup_countServices_of_some {service : Text} (counts : countServices table = some result)
    (found : table.lookup service = some ss) :
    ∃ counted, countService ss = some counted ∧ result.lookup service = some counted := by
  rw [countServices_eq] at counts
  have followed := run_follow_of_run_update counts service
  rw [updatesOf_ordered_of_some found, found, run_cons_eq_some_iff] at followed
  rcases followed with ⟨next, stepped, last⟩
  rcases Option.map_eq_some_iff.mp stepped with ⟨counted, isCounted, rfl⟩
  exact ⟨counted, isCounted, (Option.some.inj last).symm⟩

theorem instanceIn_countServices (counts : countServices table = some result)
    (pair : Text × Text) : instanceIn result pair = instanceIn table pair := by
  cases found : table.lookup pair.1 with
  | none => rw [instanceIn, instanceIn, found, lookup_countServices_of_none counts found]
  | some ss =>
      rcases lookup_countServices_of_some counts found with ⟨counted, isCounted, inResult⟩
      rw [instanceIn, instanceIn, found, inResult, Option.bind_some, Option.bind_some,
        instances_countService isCounted]

theorem Populated.countServices (populated : Populated table)
    (counts : countServices table = some result) : Populated result := by
  intro service summary inResult
  cases found : table.lookup service with
  | none =>
      rw [lookup_countServices_of_none counts found] at inResult
      cases inResult
  | some ss =>
      rcases lookup_countServices_of_some counts found with ⟨counted, isCounted, isResult⟩
      rw [isResult] at inResult
      rw [← Option.some.inj inResult, instances_countService isCounted]
      exact populated service ss found

end Counts

/-! ## The instances of a table -/

/-- The state keys that a poll finds are those of the registered instances. -/
def Poll.Finds (poll : Poll) (registered : Set Registered) : Prop :=
  ∀ inst : Registered,
    inst.stateKey ∈ poll.stateScan ↔ ∃ other ∈ registered, other.stateKey = inst.stateKey

section Instances

variable {gui : WebGui} {poll : Poll} {table : SummaryTable} {registered : Set Registered}

theorem plain_fairMQStatePrefix : Glob.Plain fairMQStatePrefix := by
  decide

theorem plain_updateTimePrefix : Glob.Plain updateTimePrefix := by
  decide

theorem Poll.Finds.mem_scan (finds : poll.Finds registered) (separator : gui.fSeparator = colon)
    {key : Text} :
    key ∈ scan poll.stateScan (gui.keyPattern fairMQStatePrefix) ↔
      ∃ inst ∈ registered, inst.stateKey = key := by
  rw [Store.mem_scan, stringmatch_keyPattern_iff separator plain_fairMQStatePrefix]
  constructor
  · rintro ⟨member, inst, rfl⟩
    exact (finds inst).mp member
  · rintro ⟨inst, member, rfl⟩
    exact ⟨(finds inst).mpr ⟨inst, member, rfl⟩, inst, rfl⟩

theorem isSome_foldl_stateEntry (values : Db) (keys : List Text) (entry : Option InstanceState) :
    (keys.foldl (stateEntry values) entry).isSome ↔ keys ≠ [] ∨ entry.isSome := by
  induction keys generalizing entry with
  | nil => simp
  | cons key rest inductionHypothesis =>
      rw [List.foldl_cons, inductionHypothesis]
      simp [stateEntry]

theorem isSome_foldl_dateEntry (values : Db) (keys : List Text) (entry : Option InstanceState) :
    (keys.foldl (dateEntry values) entry).isSome ↔ entry.isSome := by
  induction keys generalizing entry with
  | nil => rfl
  | cons key rest inductionHypothesis =>
      rw [List.foldl_cons, inductionHypothesis, dateEntry, Option.isSome_map]

/-- The entry of an instance follows from the keys found of it. -/
theorem instanceIn_readInstances (read : gui.readInstances poll = some table)
    (pair : Text × Text) :
    instanceIn table pair =
      ((scan poll.updateTimeScan (gui.keyPattern updateTimePrefix)).filter
        (gui.instanceOfKey · = some pair)).foldl (dateEntry poll.updateTimeValues)
      (((scan poll.stateScan (gui.keyPattern fairMQStatePrefix)).filter
        (gui.instanceOfKey · = some pair)).foldl (stateEntry poll.stateValues) none) := by
  rcases Option.bind_eq_some_iff.mp read with ⟨named, isNamed, isDated⟩
  rw [instanceIn_foldlM (instanceIn_enterDate pair) isDated,
    instanceIn_foldlM (instanceIn_enterState pair) isNamed]
  have absent : instanceIn ∅ pair = none := by
    rw [instanceIn, AList.lookup_empty, Option.bind_none]
  rw [absent]

/-- What entering an instance keeps holds of the table behind the loops. -/
theorem readInstances_invariant {holds : SummaryTable → Prop} (start : holds ∅)
    (kept : ∀ table pair inst, holds table → holds (enterInstance table pair inst))
    (read : gui.readInstances poll = some table) : holds table := by
  rcases Option.bind_eq_some_iff.mp read with ⟨named, isNamed, isDated⟩
  have states {before after : SummaryTable} {key : Text} (isHeld : holds before)
      (stepped : gui.enterState poll.stateValues before key = some after) : holds after := by
    rcases enterState_eq_some_iff.mp stepped with ⟨pair, -, rfl⟩
    exact kept _ _ _ isHeld
  have dates {before after : SummaryTable} {key : Text} (isHeld : holds before)
      (stepped : gui.enterDate poll.updateTimeValues before key = some after) : holds after := by
    rcases Option.map_eq_some_iff.mp stepped with ⟨pair, -, rfl⟩
    split
    · exact kept _ _ _ isHeld
    · exact isHeld
  exact foldlM_invariant (fun _ isHeld stepped => dates isHeld stepped)
    (foldlM_invariant (fun _ isHeld stepped => states isHeld stepped) start isNamed) isDated

/-- Every key that a poll finds names an instance. -/
theorem exists_readInstances (separator : gui.fSeparator = colon) (poll : Poll) :
    ∃ table, gui.readInstances poll = some table := by
  have names {db : Db} {key suffix : Text} (plain : Glob.Plain suffix)
      (member : key ∈ scan db (gui.keyPattern suffix)) :
      ∃ pair, gui.instanceOfKey key = some pair := by
    rcases (stringmatch_keyPattern_iff separator plain).mp ((Store.mem_scan _).mp member).2 with
      ⟨inst, rfl⟩
    rcases exists_instanceOfKey separator inst suffix with ⟨pair, named, -⟩
    exact ⟨pair, named⟩
  have states {before : SummaryTable} {key : Text}
      (member : key ∈ scan poll.stateScan (gui.keyPattern fairMQStatePrefix)) :
      ∃ next, gui.enterState poll.stateValues before key = some next ∧ True := by
    rcases names plain_fairMQStatePrefix member with ⟨pair, named⟩
    exact ⟨_, by rw [WebGui.enterState, named]; rfl, True.intro⟩
  have dates {before : SummaryTable} {key : Text}
      (member : key ∈ scan poll.updateTimeScan (gui.keyPattern updateTimePrefix)) :
      ∃ next, gui.enterDate poll.updateTimeValues before key = some next ∧ True := by
    rcases names plain_updateTimePrefix member with ⟨pair, named⟩
    exact ⟨_, by rw [WebGui.enterDate, named]; rfl, True.intro⟩
  rcases @exists_foldlM _ _ (gui.enterState poll.stateValues) (fun _ => True) ∅ _
    (fun member _ => states member) True.intro with ⟨named, isNamed, -⟩
  rcases @exists_foldlM _ _ (gui.enterDate poll.updateTimeValues) (fun _ => True) named _
    (fun member _ => dates member) True.intro with ⟨dated, isDated, -⟩
  exact ⟨dated, Option.bind_eq_some_iff.mpr ⟨named, isNamed, isDated⟩⟩

/-- Without an instance there is nothing to be counted. -/
theorem pollState_eq (separator : gui.fSeparator = colon) (poll : Poll) :
    gui.pollState poll = (gui.readInstances poll).bind countServices := by
  rw [WebGui.pollState]
  split
  · rename_i none
    rcases exists_readInstances separator poll with ⟨table, read⟩
    rcases Option.bind_eq_some_iff.mp read with ⟨named, isNamed, isDated⟩
    rw [none] at isNamed
    cases isNamed
    have kept {before after : SummaryTable} {key : Text} (isEmpty : before = ∅)
        (stepped : gui.enterDate poll.updateTimeValues before key = some after) : after = ∅ := by
      subst isEmpty
      rcases Option.map_eq_some_iff.mp stepped with ⟨pair, -, rfl⟩
      rw [show instanceIn ∅ pair = Option.none by
        rw [instanceIn, AList.lookup_empty, Option.bind_none]]
    have isEmpty : table = ∅ :=
      @foldlM_invariant _ _ _ (fun other => other = ∅) _ _ _
        (fun _ isEmpty stepped => kept isEmpty stepped) rfl isDated
    rw [read, isEmpty]
    rfl
  · rfl

theorem pollState_eq_some_iff (separator : gui.fSeparator = colon) :
    gui.pollState poll = some table ↔
      ∃ read, gui.readInstances poll = some read ∧ countServices read = some table := by
  rw [pollState_eq separator, Option.bind_eq_some_iff]

/-- The table of a poll has no service without an instance. -/
theorem populated_of_pollState (separator : gui.fSeparator = colon)
    (polled : gui.pollState poll = some table) : Populated table := by
  rcases (pollState_eq_some_iff separator).mp polled with ⟨read, isRead, counts⟩
  have start : Populated ∅ := by
    intro service summary found
    rw [AList.lookup_empty] at found
    cases found
  exact (readInstances_invariant start
    (fun _ pair inst populated => populated.enterInstance pair inst) isRead).countServices counts

/-- The table has what the keys of the registered instances name. -/
theorem mem_instanceSet_of_pollState (separator : gui.fSeparator = colon)
    (finds : poll.Finds registered) (polled : gui.pollState poll = some table)
    {pair : Text × Text} :
    pair ∈ instanceSet table ↔
      ∃ inst ∈ registered, gui.instanceOfKey inst.stateKey = some pair := by
  rcases (pollState_eq_some_iff separator).mp polled with ⟨read, isRead, counts⟩
  rw [mem_instanceSet_iff, instanceIn_countServices counts, instanceIn_readInstances isRead,
    isSome_foldl_dateEntry, isSome_foldl_stateEntry]
  rw [Option.isSome_none, Bool.false_eq_true, or_false, ne_eq, List.filter_eq_nil_iff]
  simp only [not_forall, not_not, decide_eq_true_eq, exists_prop, finds.mem_scan separator]
  constructor
  · rintro ⟨key, ⟨inst, member, rfl⟩, names⟩
    exact ⟨inst, member, names⟩
  · rintro ⟨inst, member, names⟩
    exact ⟨inst.stateKey, ⟨inst, member, rfl⟩, names⟩

/-- The table has exactly the registered instances if there are no separators in names. -/
theorem instanceSet_eq_iff (separator : gui.fSeparator = colon) (finds : poll.Finds registered)
    (polled : gui.pollState poll = some table) :
    instanceSet table = Registered.pair '' registered ↔ ∀ inst ∈ registered, inst.Apart := by
  constructor
  · intro same inst member
    have inTable : inst.pair ∈ instanceSet table := by
      rw [same]
      exact ⟨inst, member, rfl⟩
    rcases (mem_instanceSet_of_pollState separator finds polled).mp inTable with
      ⟨other, -, names⟩
    rcases exists_instanceOfKey separator other fairMQStatePrefix with ⟨pair, named, parts⟩
    rw [show other.stateKey = other.key fairMQStatePrefix from rfl, named] at names
    rw [Option.some.inj names] at parts
    exact parts
  · intro apart
    apply Set.ext
    intro pair
    rw [mem_instanceSet_of_pollState separator finds polled]
    constructor
    · rintro ⟨inst, member, names⟩
      have own : gui.instanceOfKey inst.stateKey = some inst.pair :=
        (instanceOfKey_key_eq_iff separator).mpr (apart inst member)
      exact ⟨inst, member, Option.some.inj (own.symm.trans names)⟩
    · rintro ⟨inst, member, rfl⟩
      exact ⟨inst, member, (instanceOfKey_key_eq_iff separator).mpr (apart inst member)⟩

end Instances

/-! ## What a page shows -/

/-- The lists of the page are the services and the long names of the registered instances,
each once. -/
structure ShowsRegistered (registered : Set Registered) (page : Page) : Prop where
  services : ∃ names, Lists "Choose Services" page.services names ∧
    names.Nodup ∧ ∀ name, name ∈ names ↔ ∃ inst ∈ registered, inst.service = name
  instances : ∃ names, Lists "Choose Instances" page.instances names ∧
    names.Nodup ∧ ∀ name, name ∈ names ↔ ∃ inst ∈ registered, inst.longId = name

section Pages

variable {gui : WebGui} {registered : Set Registered} {table : SummaryTable} {page : Page}

theorem mem_instanceNames_listed {name : Text} :
    name ∈ instanceNames (listed table) ↔
      ∃ pair ∈ instanceSet table, pair.1 ++ ':' :: pair.2 = name := by
  simp only [instanceNames, listed_eq, List.mem_flatMap, List.mem_map, mem_sortUnique]
  constructor
  · rintro ⟨_, ⟨service, -, rfl⟩, id, member, rfl⟩
    exact ⟨(service, id), mem_instancesOf.mp (mem_sortUnique.mp member), rfl⟩
  · rintro ⟨⟨service, id⟩, member, rfl⟩
    refine ⟨_, ⟨service, ?_, rfl⟩, id, mem_sortUnique.mpr (mem_instancesOf.mpr member), rfl⟩
    rcases member with ⟨summary, found, -⟩
    exact AList.mem_keys.mp (AList.lookup_isSome.mp (by rw [found]; rfl))

/-- Long names of different instances are different where services have no separator. -/
theorem nodup_instanceNames_listed (parts : ∀ service ∈ table, Part service) :
    (instanceNames (listed table)).Nodup := by
  rw [instanceNames, listed_eq, List.flatMap_map, List.nodup_flatMap]
  constructor
  · intro service _
    apply (nodup_sortUnique _).map
    intro first second same
    exact (List.cons.inj (List.append_cancel_left same)).2
  · apply (nodup_sortUnique table.keys).imp_of_mem
    intro first second inFirst inSecond differs
    rw [Function.onFun, List.disjoint_left]
    intro name byFirst bySecond
    rcases List.mem_map.mp byFirst with ⟨id, -, rfl⟩
    rcases List.mem_map.mp bySecond with ⟨other, -, same⟩
    have isPart {service : Text} (member : service ∈ sortUnique table.keys) : Part service :=
      parts service (AList.mem_keys.mpr (mem_sortUnique.mp member))
    exact differs (Text.append_separator_inj (isPart inSecond) (isPart inFirst) same).1.symm

/-- A page that shows the table shows the instances that the table has. -/
theorem Shows.showsRegistered (shows : Shows table page) (populated : Populated table)
    (same : instanceSet table = Registered.pair '' registered)
    (apart : ∀ inst ∈ registered, inst.Apart) : ShowsRegistered registered page := by
  have inService (service : Text) :
      service ∈ table ↔ ∃ inst ∈ registered, inst.service = service := by
    rw [populated.mem_iff, same]
    constructor
    · rintro ⟨_, inst, member, isPair⟩
      exact ⟨inst, member, congrArg Prod.fst isPair⟩
    · rintro ⟨inst, member, rfl⟩
      exact ⟨inst.id, inst, member, rfl⟩
  constructor
  · refine ⟨_, shows.services, ?_, ?_⟩
    · rw [map_fst_listed]
      exact nodup_sortUnique _
    · intro name
      rw [map_fst_listed, mem_sortUnique, ← inService]
      exact AList.mem_keys.symm
  · refine ⟨_, shows.instances, ?_, ?_⟩
    · apply nodup_instanceNames_listed
      intro service member
      rcases (inService service).mp member with ⟨inst, isRegistered, rfl⟩
      exact (apart inst isRegistered).1
    · intro name
      rw [mem_instanceNames_listed, same]
      constructor
      · rintro ⟨_, ⟨inst, member, rfl⟩, rfl⟩
        exact ⟨inst, member, inst.longId_eq⟩
      · rintro ⟨inst, member, rfl⟩
        exact ⟨inst.pair, ⟨inst, member, rfl⟩, inst.longId_eq.symm⟩

/-- A long name with one separator is that of an instance without separators in its names. -/
theorem Registered.apart_of_longId {inst : Registered} {service id : Text}
    (isService : Part service) (isId : Part id) (same : service ++ ':' :: id = inst.longId) :
    inst.Apart := by
  rw [inst.longId_eq] at same
  have counts := congrArg (List.count ':') same
  rw [List.count_append, List.count_append, List.count_cons_self, List.count_cons_self,
    List.count_eq_zero.mpr isService, List.count_eq_zero.mpr isId] at counts
  exact ⟨List.count_eq_zero.mp (by omega), List.count_eq_zero.mp (by omega)⟩

/-- A list that has been built has one list of names only. -/
theorem Lists.eq_of_built {first : String} {options names built : List Text}
    (lists : Lists first options names) (isBuilt : options = first.toList :: everyone :: built) :
    names = built := by
  rcases lists with shown | ⟨none, -⟩
  · exact (List.cons.inj (List.cons.inj (shown.symm.trans isBuilt)).2).2
  · rw [none] at isBuilt
    cases isBuilt

/-- A page that is built for the table of a poll shows the registered instances only if there
is no separator in their names. -/
theorem apart_of_built {poll : Poll} (separator : gui.fSeparator = colon)
    (finds : poll.Finds registered) (polled : gui.pollState poll = some table)
    (built : Built table page) (shows : ShowsRegistered registered page) :
    ∀ inst ∈ registered, inst.Apart := by
  intro inst member
  rcases shows.instances with ⟨names, lists, -, isName⟩
  have isListed := (isName inst.longId).mpr ⟨inst, member, rfl⟩
  rw [lists.eq_of_built built.instances, mem_instanceNames_listed] at isListed
  rcases isListed with ⟨pair, inTable, isLongId⟩
  rcases (mem_instanceSet_of_pollState separator finds polled).mp inTable with ⟨other, -, names⟩
  rcases exists_instanceOfKey separator other fairMQStatePrefix with ⟨own, named, parts⟩
  rw [show other.stateKey = other.key fairMQStatePrefix from rfl, named] at names
  rw [Option.some.inj names] at parts
  exact Registered.apart_of_longId parts.1 parts.2 isLongId

/-- The table of a poll is empty if the poll finds nobody. -/
theorem eq_empty_iff_of_pollState {poll : Poll} (separator : gui.fSeparator = colon)
    (finds : poll.Finds registered) (polled : gui.pollState poll = some table) :
    table = ∅ ↔ registered = ∅ := by
  have populated := populated_of_pollState separator polled
  rw [eq_empty_iff, Set.eq_empty_iff_forall_notMem]
  constructor
  · intro none inst member
    rcases exists_instanceOfKey separator inst fairMQStatePrefix with ⟨pair, named, -⟩
    have inTable := (mem_instanceSet_of_pollState separator finds polled).mpr ⟨inst, member, named⟩
    exact none pair.1 (populated.mem_iff.mpr ⟨pair.2, inTable⟩)
  · intro none service member
    rcases populated.mem_iff.mp member with ⟨id, inTable⟩
    rcases (mem_instanceSet_of_pollState separator finds polled).mp inTable with ⟨inst, found, -⟩
    exact none inst found

/-- What holds of two lists item by item, at a place. -/
theorem exists_getElem?_of_forall₂ {α β : Type} {related : α → β → Prop} {items : List α}
    {others : List β} (all : List.Forall₂ related items others) {place : Nat} {item : α}
    (here : items[place]? = some item) :
    ∃ other, others[place]? = some other ∧ related item other := by
  induction all generalizing place with
  | nil => cases here
  | cons first _ inductionHypothesis =>
      cases place with
      | zero =>
          cases here
          exact ⟨_, rfl, first⟩
      | succ place => exact inductionHypothesis here

/-- No poll that finds nobody comes right behind one that finds somebody. -/
def StaysRegistered (polls : List (Poll × Set Registered)) : Prop :=
  ∀ index before after, polls[index]? = some before → polls[index + 1]? = some after →
    before.2 ≠ ∅ → after.2 ≠ ∅

end Pages

/-- A poll that finds one instance, with its state and its update time. -/
def samplerPoll : Poll where
  stateScan := (∅ : Db).insert sampler.stateKey (.string DeviceState.ready.name)
  stateValues := (∅ : Db).insert sampler.stateKey (.string DeviceState.ready.name)
  updateTimeScan := (∅ : Db).insert (sampler.key updateTimePrefix) (.string "10:00".toList)
  updateTimeValues := (∅ : Db).insert (sampler.key updateTimePrefix) (.string "10:00".toList)

theorem finds_samplerPoll : samplerPoll.Finds {sampler} := by
  intro inst
  rw [samplerPoll, AList.mem_insert, or_iff_left (AList.notMem_empty _)]
  constructor
  · intro same
    exact ⟨sampler, rfl, same.symm⟩
  · rintro ⟨_, rfl, same⟩
    exact same.symm

/-- A poll that finds nobody. -/
def emptyPoll : Poll :=
  ⟨∅, ∅, ∅, ∅⟩

theorem finds_emptyPoll : emptyPoll.Finds ∅ := by
  intro inst
  apply iff_of_false
  · exact AList.notMem_empty _
  · rintro ⟨other, found, -⟩
    cases found

end NestDaq.Controller
