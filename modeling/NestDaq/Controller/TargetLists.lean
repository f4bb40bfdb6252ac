import NestDaq.Controller.Summary

/-!
# The lists of targets

The page of the operator has a list of the services and one of the instances. A summary
tells with two flags whether they have to be rebuilt; a page that has just been opened
builds them in any case. A tree without children is written as a text, also where the page
expects an array, and the page stops with an error then: it keeps its lists when the last
service has gone.
-/

namespace NestDaq.Controller

open NestDaq.Message

/-- `SendStateSummary` for one table after the other, behind a first one. -/
def summaries : SummaryTable → List SummaryTable → List PTree
  | _, [] => []
  | prevTable, table :: rest => summaryTree prevTable table :: summaries table rest

/-- The services of a table. -/
def serviceSet (table : SummaryTable) : Set Text :=
  {service | service ∈ table}

/-- The instances of a table, each with its service. -/
def instanceSet (table : SummaryTable) : Set (Text × Text) :=
  {pair | ∃ summary, table.lookup pair.1 = some summary ∧ pair.2 ∈ summary.instances}

/-- Every service has an instance. -/
def Populated (table : SummaryTable) : Prop :=
  ∀ service summary, table.lookup service = some summary →
    ∃ instName, instName ∈ summary.instances

def serviceListField : Text := "service_list_changed".toList
def instanceListField : Text := "instance_list_changed".toList
def serviceField : Text := "service".toList
def instanceField : Text := "instance".toList

/-- The options of the two selections. -/
structure Page where
  services : List Text
  instances : List Text

/-- A page that has been opened. -/
def emptyPage : Page :=
  ⟨[], []⟩

/-- The elements of a child. A child without children is written as a text, for which
`forEach` throws. -/
def elements (tree : PTree) (name : Text) : Option (List PTree) := do
  let child ← tree.getChild name
  if child.children.isEmpty then none else some (child.children.map Prod.snd)

/-- What the page reads of a service: its name and its instances. -/
def readService (s : PTree) : Option (Text × List Text) := do
  let name ← s.getOptional serviceField
  let instances ← elements s instancesField
  let names ← instances.mapM fun i => i.getOptional instanceField
  return (name, names)

/-- The names of the services. -/
def readNames (arg : PTree) : Option (List Text) := do
  let services ← elements arg servicesField
  services.mapM fun s => s.getOptional serviceField

def readServices (arg : PTree) : Option (List (Text × List Text)) := do
  let services ← elements arg servicesField
  services.mapM readService

/-- `UpdateTargetServices` and `UpdateTargetInstances`, with the first option of each. -/
def updateTargets (first : String) (changed : Option Text) (names options : List Text) :
    List Text :=
  if options.length > 0 ∧ changed = some "false".toList then options
  else first.toList :: everyone :: names

/-- The names of the instances in the list. -/
def instanceNames (services : List (Text × List Text)) : List Text :=
  services.flatMap fun s => s.2.map fun i => s.1 ++ ':' :: i

/-- The lists after `UpdateSummaryTable`, which throws where it cannot read the message. The
tables that it fills before the lists are not part of the model. -/
def updateSummaryTable (page : Page) (arg : PTree) : Page :=
  match readNames arg with
  | none => page
  | some names =>
      let withServices :=
        { page with
          services := updateTargets "Choose Services" (arg.getOptional serviceListField) names
            page.services }
      match readServices arg with
      | none => withServices
      | some services =>
          { withServices with
            instances := updateTargets "Choose Instances" (arg.getOptional instanceListField)
              (instanceNames services) page.instances }

/-- The services and instances of a table in the order of the message. -/
def listed (table : SummaryTable) : List (Text × List Text) :=
  (ordered table).map fun (service, summary) =>
    (service, (ordered summary.instances).map Prod.fst)

/-- A list that has been built has these names behind its two first options. A list that has
not been built has no options. -/
def Lists (first : String) (options names : List Text) : Prop :=
  options = first.toList :: everyone :: names ∨ options = [] ∧ names = []

/-- The page shows exactly the services and the instances of the table. -/
structure Shows (table : SummaryTable) (page : Page) : Prop where
  services : Lists "Choose Services" page.services ((listed table).map Prod.fst)
  instances : Lists "Choose Instances" page.instances (instanceNames (listed table))

/-- The page has built its lists for the table. -/
structure Built (table : SummaryTable) (page : Page) : Prop where
  services : page.services =
    "Choose Services".toList :: everyone :: (listed table).map Prod.fst
  instances : page.instances =
    "Choose Instances".toList :: everyone :: instanceNames (listed table)

variable {prevTable table : SummaryTable}

/-- Sizes and the keys of the second map tell whether two maps have the same keys. -/
theorem keysDiffer_eq_false_iff {V : Type} {first second : AList fun _ : Text => V} :
    (decide (first.entries.length ≠ second.entries.length) ||
        (ordered second).any fun (k, _) => k ∉ first) = false ↔
      ∀ key, key ∈ first ↔ key ∈ second := by
  rw [← length_entries_eq_and_forall_mem_iff, Bool.or_eq_false_iff, decide_eq_false_iff_not,
    not_not, List.any_eq_false]
  apply and_congr_right'
  simp only [decide_eq_true_eq, not_not]
  constructor
  · intro known k member
    rcases Option.isSome_iff_exists.mp (AList.lookup_isSome.mpr member) with ⟨v, found⟩
    exact known (k, v) (mem_ordered.mpr found)
  · intro known pair member
    apply known
    exact AList.lookup_isSome.mp (by rw [mem_ordered.mp member]; rfl)

theorem serviceListChanged_eq_false_iff :
    serviceListChanged prevTable table = false ↔ serviceSet prevTable = serviceSet table := by
  rw [serviceListChanged, keysDiffer_eq_false_iff, Set.ext_iff]
  rfl

theorem mem_instanceSet {service instName : Text} {summary : ServiceState}
    (found : table.lookup service = some summary) :
    (service, instName) ∈ instanceSet table ↔ instName ∈ summary.instances := by
  simp [instanceSet, found]

/-- In tables without empty services the services are those that have an instance. -/
theorem Populated.mem_iff (populated : Populated table) {service : Text} :
    service ∈ table ↔ ∃ instName, (service, instName) ∈ instanceSet table := by
  constructor
  · intro member
    rcases Option.isSome_iff_exists.mp (AList.lookup_isSome.mpr member) with ⟨summary, found⟩
    rcases populated service summary found with ⟨instName, inSummary⟩
    exact ⟨instName, (mem_instanceSet found).mpr inSummary⟩
  · rintro ⟨instName, summary, found, -⟩
    exact AList.lookup_isSome.mp (by rw [found]; rfl)

theorem Populated.serviceSet_eq (prevPopulated : Populated prevTable)
    (populated : Populated table) (same : instanceSet prevTable = instanceSet table) :
    serviceSet prevTable = serviceSet table := by
  apply Set.ext
  intro service
  change service ∈ prevTable ↔ service ∈ table
  rw [prevPopulated.mem_iff, populated.mem_iff, same]

theorem instanceListChanged_eq_false_iff (prevPopulated : Populated prevTable)
    (populated : Populated table) :
    instanceListChanged prevTable table = false ↔
      instanceSet prevTable = instanceSet table := by
  rw [instanceListChanged, Bool.or_eq_false_iff, serviceListChanged_eq_false_iff,
    List.any_eq_false]
  constructor
  · rintro ⟨sameServices, unchanged⟩
    apply Set.ext
    rintro ⟨service, instName⟩
    have sameKey : service ∈ prevTable ↔ service ∈ table := Set.ext_iff.mp sameServices service
    by_cases known : service ∈ table
    · rcases Option.isSome_iff_exists.mp (AList.lookup_isSome.mpr known) with ⟨v, found⟩
      rcases Option.isSome_iff_exists.mp (AList.lookup_isSome.mpr (sameKey.mpr known)) with
        ⟨srv, before⟩
      have sameInstances := unchanged (service, v) (mem_ordered.mpr found)
      simp only [before, Option.any_some, Bool.not_eq_true] at sameInstances
      rw [mem_instanceSet found, mem_instanceSet before]
      exact keysDiffer_eq_false_iff.mp sameInstances instName
    · -- neither table has the service
      constructor
      · intro member
        exact absurd (sameKey.mp (prevPopulated.mem_iff.mpr ⟨instName, member⟩)) known
      · intro member
        exact absurd (populated.mem_iff.mpr ⟨instName, member⟩) known
  · intro same
    constructor
    · exact prevPopulated.serviceSet_eq populated same
    · rintro ⟨service, v⟩ member
      have found := mem_ordered.mp member
      cases before : prevTable.lookup service with
      | none => simp [before]
      | some srv =>
          simp only [before, Option.any_some, Bool.not_eq_true]
          rw [keysDiffer_eq_false_iff]
          intro instName
          rw [← mem_instanceSet before, ← mem_instanceSet found, same]

theorem map_fst_listed (table : SummaryTable) :
    (listed table).map Prod.fst = sortUnique table.keys := by
  rw [listed, List.map_map, ← map_fst_ordered]
  rfl

/-- The instances of a service, none for an unknown one. -/
def instancesOf (table : SummaryTable) (service : Text) : List Text :=
  (table.lookup service).elim [] fun summary => summary.instances.keys

theorem mem_instancesOf {service instName : Text} :
    instName ∈ instancesOf table service ↔ (service, instName) ∈ instanceSet table := by
  cases found : table.lookup service with
  | none => simp [instancesOf, instanceSet, found]
  | some summary =>
      rw [mem_instanceSet found, instancesOf, found]
      exact AList.mem_keys.symm

theorem listed_eq (table : SummaryTable) :
    listed table = (sortUnique table.keys).map fun service =>
      (service, sortUnique (instancesOf table service)) := by
  rw [← map_fst_ordered, listed, List.map_map]
  apply List.map_congr_left
  rintro ⟨service, summary⟩ member
  simp only [Function.comp_apply, instancesOf, mem_ordered.mp member, Option.elim_some,
    map_fst_ordered]

/-- The services are listed alike when they are the same. -/
theorem map_fst_listed_congr (same : serviceSet prevTable = serviceSet table) :
    (listed prevTable).map Prod.fst = (listed table).map Prod.fst := by
  rw [map_fst_listed, map_fst_listed]
  apply sortUnique_congr
  intro service
  exact Set.ext_iff.mp same service

/-- The instances are listed alike when they are the same. -/
theorem listed_congr (prevPopulated : Populated prevTable) (populated : Populated table)
    (same : instanceSet prevTable = instanceSet table) : listed prevTable = listed table := by
  have services := map_fst_listed_congr (prevPopulated.serviceSet_eq populated same)
  rw [map_fst_listed, map_fst_listed] at services
  rw [listed_eq, listed_eq, services]
  apply List.map_congr_left
  intro service _
  rw [sortUnique_congr]
  intro instName
  rw [mem_instancesOf, mem_instancesOf, same]

/-! ## The message and the page -/

/-- The text of a flag. -/
def flagText (value : Bool) : Text :=
  if value then "true".toList else "false".toList

theorem getOptional_serviceList :
    (summaryTree prevTable table).getOptional serviceListField =
      some (flagText (serviceListChanged prevTable table)) := by
  rfl

theorem getOptional_instanceList :
    (summaryTree prevTable table).getOptional instanceListField =
      some (flagText (instanceListChanged prevTable table)) := by
  rfl

theorem getOptional_instance (service instName : Text) (istate : InstanceState) :
    (instanceTree service instName istate).getOptional instanceField = some instName := by
  rfl

theorem getOptional_service (service : Text) (summary : ServiceState) :
    (serviceTree service summary).getOptional serviceField = some service := by
  rfl

/-- A list of trees is read one by one. -/
theorem mapM_eq_map {A B : Type} {trees : List A} {tree : A → PTree} {read : PTree → Option B}
    {value : A → B} (reads : ∀ item ∈ trees, read (tree item) = some (value item)) :
    (trees.map tree).mapM read = some (trees.map value) := by
  induction trees with
  | nil => rfl
  | cons item trees ih =>
      rw [List.map_cons, List.mapM_cons,
        ih fun other member => reads other (List.mem_cons_of_mem _ member)]
      simp [reads item List.mem_cons_self]

/-- The elements of an array that has some. -/
theorem elements_of_getChild {tree : PTree} {name : Text} {trees : List PTree}
    (child : tree.getChild name = some (items trees)) (some : trees ≠ []) :
    elements tree name = Option.some trees := by
  rw [elements, child, Option.bind_eq_bind, Option.bind_some, items, PTree.children,
    if_neg (by simpa using some), List.map_map]
  exact congrArg Option.some (List.map_id' trees)

theorem ordered_eq_nil_iff {V : Type} {map : AList fun _ : Text => V} :
    ordered map = [] ↔ ∀ key, key ∉ map := by
  rw [List.eq_nil_iff_forall_not_mem]
  constructor
  · intro none key member
    rcases Option.isSome_iff_exists.mp (AList.lookup_isSome.mpr member) with ⟨value, found⟩
    exact none (key, value) (mem_ordered.mpr found)
  · rintro none ⟨key, value⟩ member
    exact none key (AList.lookup_isSome.mp (by rw [mem_ordered.mp member]; rfl))

theorem eq_empty_iff {V : Type} {map : AList fun _ : Text => V} :
    map = ∅ ↔ ∀ key, key ∉ map := by
  constructor
  · rintro rfl key
    exact AList.notMem_empty key
  · intro none
    apply AList.ext
    rw [AList.empty_entries, List.eq_nil_iff_forall_not_mem]
    intro entry member
    exact none entry.1 (AList.mem_keys.mpr (List.mem_map_of_mem member))

/-- The page reads the names of a service that has instances. -/
theorem readService_serviceTree (service : Text) {summary : ServiceState}
    (some : ∃ instName, instName ∈ summary.instances) :
    readService (serviceTree service summary) =
      Option.some (service, (ordered summary.instances).map Prod.fst) := by
  have child : (serviceTree service summary).getChild instancesField =
      Option.some (items ((ordered summary.instances).map fun item =>
        instanceTree service item.1 item.2)) := by
    rfl
  have nonempty : ((ordered summary.instances).map fun item =>
      instanceTree service item.1 item.2) ≠ [] := by
    rw [ne_eq, List.map_eq_nil_iff, ordered_eq_nil_iff, not_forall]
    rcases some with ⟨instName, member⟩
    exact ⟨instName, not_not.mpr member⟩
  have names : ((ordered summary.instances).map fun item =>
      instanceTree service item.1 item.2).mapM (fun i => i.getOptional instanceField) =
        Option.some ((ordered summary.instances).map Prod.fst) :=
    mapM_eq_map fun item _ => getOptional_instance service item.1 item.2
  rw [readService, getOptional_service, elements_of_getChild child nonempty]
  simp only [Option.bind_eq_bind, Option.bind_some]
  rw [names]
  rfl

theorem getChild_services :
    (summaryTree prevTable table).getChild servicesField =
      some (items ((ordered table).map fun item => serviceTree item.1 item.2)) := by
  rfl

/-- The page reads the services and the instances of a table that has some. -/
theorem read_summaryTree (populated : Populated table) (some : table ≠ ∅) :
    readNames (summaryTree prevTable table) = Option.some ((listed table).map Prod.fst) ∧
      readServices (summaryTree prevTable table) = Option.some (listed table) := by
  have nonempty : ((ordered table).map fun item => serviceTree item.1 item.2) ≠ [] := by
    rw [ne_eq, List.map_eq_nil_iff, ordered_eq_nil_iff, ← eq_empty_iff]
    exact some
  rw [readNames, readServices, elements_of_getChild getChild_services nonempty]
  simp only [Option.bind_eq_bind, Option.bind_some]
  constructor
  · rw [map_fst_listed, ← map_fst_ordered]
    exact mapM_eq_map fun item _ => getOptional_service item.1 item.2
  · apply mapM_eq_map
    intro item member
    exact readService_serviceTree item.1 (populated item.1 item.2 (mem_ordered.mp member))

/-- The page leaves its lists as they are when a table has no services. -/
theorem updateSummaryTable_empty (page : Page) :
    updateSummaryTable page (summaryTree prevTable ∅) = page := by
  have none : ordered (∅ : SummaryTable) = [] := ordered_eq_nil_iff.mpr AList.notMem_empty
  have unread : readNames (summaryTree prevTable ∅) = Option.none := by
    rw [readNames, elements, getChild_services, none]
    rfl
  rw [updateSummaryTable, unread]

/-- A list that was right is right again: it is kept only when nothing has changed. -/
theorem updateTargets_eq {first : String} {changed : Bool} {before names options : List Text}
    (current : options = [] ∨
      options = first.toList :: everyone :: before ∧ (changed = false → before = names)) :
    updateTargets first (some (flagText changed)) names options =
      first.toList :: everyone :: names := by
  rw [updateTargets]
  split_ifs with kept
  · rcases current with empty | ⟨shown, same⟩
    · rw [empty] at kept
      exact absurd kept.1 (Nat.lt_irrefl 0)
    · cases changed with
      | true => exact absurd kept.2 (by decide +kernel)
      | false => rw [shown, same rfl]
  · rfl

/-- A page that is new or has built its lists for the previous table builds them for a table
with services. -/
theorem built_updateSummaryTable {page : Page} (populated : Populated table)
    (some : table ≠ ∅) (current : page = emptyPage ∨ Populated prevTable ∧ Built prevTable page) :
    Built table (updateSummaryTable page (summaryTree prevTable table)) := by
  have read := @read_summaryTree prevTable table populated some
  have updated : updateSummaryTable page (summaryTree prevTable table) =
      { services := updateTargets "Choose Services"
          (Option.some (flagText (serviceListChanged prevTable table)))
          ((listed table).map Prod.fst) page.services
        instances := updateTargets "Choose Instances"
          (Option.some (flagText (instanceListChanged prevTable table)))
          (instanceNames (listed table)) page.instances } := by
    rw [updateSummaryTable, read.1, read.2, getOptional_serviceList, getOptional_instanceList]
  rw [updated]
  constructor
  · apply updateTargets_eq
    rcases current with rfl | ⟨_, built⟩
    · exact Or.inl rfl
    · right
      constructor
      · exact built.services
      · intro unchanged
        exact map_fst_listed_congr (serviceListChanged_eq_false_iff.mp unchanged)
  · apply updateTargets_eq
    rcases current with rfl | ⟨prevPopulated, built⟩
    · exact Or.inl rfl
    · right
      constructor
      · exact built.instances
      · intro unchanged
        rw [listed_congr prevPopulated populated
          ((instanceListChanged_eq_false_iff prevPopulated populated).mp unchanged)]

theorem Built.shows {page : Page} (built : Built table page) : Shows table page :=
  ⟨Or.inl built.services, Or.inl built.instances⟩

/-- A new page shows a table without services. -/
theorem shows_emptyPage : Shows ∅ emptyPage := by
  have none : listed ∅ = [] := by
    rw [listed, ordered_eq_nil_iff.mpr AList.notMem_empty]
    rfl
  constructor
  · exact Or.inr ⟨rfl, by rw [none]; rfl⟩
  · exact Or.inr ⟨rfl, by rw [none]; rfl⟩

/-- Lists that have been built for a table with services do not show one without. -/
theorem Built.not_lists_nil {page : Page} (built : Built table page) (some : table ≠ ∅) :
    ¬ Lists "Choose Services" page.services [] := by
  have names : (listed table).map Prod.fst ≠ [] := by
    rw [listed, List.map_map, ne_eq, List.map_eq_nil_iff, ordered_eq_nil_iff, ← eq_empty_iff]
    exact some
  rw [Lists, built.services]
  simpa using names

/-! ## Runs -/

variable {tables : List SummaryTable}

theorem summaries_getElem? {index : Nat} (here : tables[index]? = some prevTable)
    (next : tables[index + 1]? = some table) (before : SummaryTable) :
    (summaries before tables)[index + 1]? = some (summaryTree prevTable table) := by
  induction tables generalizing before index with
  | nil => cases here
  | cons first rest ih =>
      cases index with
      | zero =>
          cases here
          cases rest with
          | nil => cases next
          | cons second rest =>
              cases next
              rfl
      | succ index => exact ih here next first

/-- The messages after some are those of the tables after some. -/
theorem exists_drop_summaries (before : SummaryTable) (tables : List SummaryTable) (missed : Nat) :
    ∃ last, (summaries before tables).drop missed = summaries last (tables.drop missed) := by
  induction missed generalizing before tables with
  | zero => exact ⟨before, rfl⟩
  | succ missed ih =>
      cases tables with
      | nil => exact ⟨before, rfl⟩
      | cons first rest => exact ih first rest

/-- No table without services comes right behind one with services. -/
def StaysPopulated (tables : List SummaryTable) : Prop :=
  ∀ index prevTable table, tables[index]? = some prevTable →
    tables[index + 1]? = some table → prevTable ≠ ∅ → table ≠ ∅

/-- A page that is new, or that has been built for the table before the first message, shows
each table after its message; where it is built, the next table has services. -/
theorem shows_foldl_summaries (populated : ∀ table ∈ tables, Populated table)
    (stays : StaysPopulated tables) {page : Page}
    (current : page = emptyPage ∨
      (Populated prevTable ∧ Built prevTable page) ∧ ∀ first ∈ tables.head?, first ≠ ∅)
    {seen : Nat} (here : tables[seen]? = some table) :
    Shows table (((summaries prevTable tables).take (seen + 1)).foldl updateSummaryTable page) := by
  induction tables generalizing prevTable page seen with
  | nil => cases here
  | cons first rest ih =>
      have firstPopulated := populated first List.mem_cons_self
      have restPopulated (later : SummaryTable) (member : later ∈ rest) : Populated later :=
        populated later (List.mem_cons_of_mem _ member)
      have restStays : StaysPopulated rest :=
        fun index before after here next => stays (index + 1) before after here next
      by_cases none : first = ∅
      · -- the page is new, and stays so
        subst none
        have isNew : page = emptyPage :=
          current.resolve_right fun built => built.2 ∅ rfl rfl
        subst isNew
        have kept := @updateSummaryTable_empty prevTable emptyPage
        cases seen with
        | zero =>
            cases here
            simp only [summaries, List.take_succ_cons, List.take_zero, List.foldl_cons,
              List.foldl_nil, kept]
            exact shows_emptyPage
        | succ seen =>
            simp only [summaries, List.take_succ_cons, List.foldl_cons, kept]
            exact ih restPopulated restStays (Or.inl rfl) here
      · have built := built_updateSummaryTable firstPopulated none
          (current.imp_right fun built => built.1)
        cases seen with
        | zero =>
            cases here
            exact built.shows
        | succ seen =>
            refine ih restPopulated restStays (Or.inr ⟨⟨firstPopulated, built⟩, ?_⟩) here
            intro second isSecond
            apply stays 0 first second rfl ?_ none
            rw [List.getElem?_cons_succ, ← List.head?_eq_getElem?]
            exact isSecond

/-- A page that is opened before a message with services builds its lists for them, and keeps
them at a message without services. -/
theorem built_page (populated : ∀ table ∈ tables, Populated table) {place : Nat}
    (here : tables[place]? = some table) (some : table ≠ ∅) :
    Built table ((((summaries ∅ tables).drop place).take 1).foldl updateSummaryTable emptyPage) ∧
      (tables[place + 1]? = Option.some ∅ →
        (((summaries ∅ tables).drop place).take 2).foldl updateSummaryTable emptyPage =
          (((summaries ∅ tables).drop place).take 1).foldl updateSummaryTable emptyPage) := by
  rcases exists_drop_summaries ∅ tables place with ⟨last, rest⟩
  rw [rest]
  have isHead : (tables.drop place).head? = Option.some table := by
    rw [List.head?_eq_getElem?, List.getElem?_drop, Nat.add_zero, here]
  rcases List.head?_eq_some_iff.mp isHead with ⟨later, split⟩
  rw [split]
  refine ⟨built_updateSummaryTable (populated table (List.mem_of_getElem? here)) some (Or.inl rfl),
    fun next => ?_⟩
  have isNext : later[0]? = Option.some ∅ := by
    have shifted := congrArg (·[1]?) split
    simpa [List.getElem?_drop, next] using shifted.symm
  cases later with
  | nil => cases isNext
  | cons second later =>
      cases isNext
      simp only [summaries, List.take_succ_cons, List.take_zero, List.foldl_cons, List.foldl_nil,
        updateSummaryTable_empty]

/-- The flags of every message after the first tell whether the services and the instances
are others than those of the table before; and a page that is opened at any time and then
gets every message shows the services and the instances of each table after its message. -/
def FlagsAndTargets (tables : List SummaryTable) : Prop :=
  (∀ index prevTable table, tables[index]? = some prevTable →
      tables[index + 1]? = some table →
        ∃ message, (summaries ∅ tables)[index + 1]? = some message ∧
          (message.getOptional serviceListField = some "true".toList ↔
            serviceSet prevTable ≠ serviceSet table) ∧
          (message.getOptional instanceListField = some "true".toList ↔
            instanceSet prevTable ≠ instanceSet table)) ∧
    ∀ missed seen table, tables[missed + seen]? = some table →
      Shows table ((((summaries ∅ tables).drop missed).take (seen + 1)).foldl
        updateSummaryTable emptyPage)

/-- For tables in which every service has an instance, the flags are always right, and the
lists of all pages are exactly if no table without services follows one with services. -/
theorem flagsAndTargets_iff (populated : ∀ table ∈ tables, Populated table) :
    FlagsAndTargets tables ↔ StaysPopulated tables := by
  have flagged : ∀ value, some (flagText value) = some "true".toList ↔ ¬ value = false := by
    intro value
    cases value <;> decide
  constructor
  · rintro ⟨-, shows⟩ index prevTable table here next some none
    subst none
    have built := built_page populated here some
    have shown := shows index 1 ∅ next
    rw [built.2 next] at shown
    apply built.1.not_lists_nil some
    have noServices : (listed ∅).map Prod.fst = [] := by
      rw [listed, ordered_eq_nil_iff.mpr AList.notMem_empty]
      rfl
    rw [← noServices]
    exact shown.services
  · intro stays
    constructor
    · intro index prevTable table here next
      refine ⟨_, summaries_getElem? here next ∅, ?_, ?_⟩
      · rw [getOptional_serviceList, flagged, serviceListChanged_eq_false_iff]
      · rw [getOptional_instanceList, flagged, instanceListChanged_eq_false_iff
          (populated _ (List.mem_of_getElem? here)) (populated _ (List.mem_of_getElem? next))]
    · intro missed seen table here
      rcases exists_drop_summaries ∅ tables missed with ⟨last, rest⟩
      rw [rest]
      apply shows_foldl_summaries
      · intro later member
        exact populated later (List.mem_of_mem_drop member)
      · intro index before after isBefore isAfter
        rw [List.getElem?_drop] at isBefore isAfter
        exact stays (missed + index) before after isBefore isAfter
      · exact Or.inl rfl
      · rw [List.getElem?_drop, here]

/-- A table with one service and two instances. -/
def smallTable (service first second : Text) : SummaryTable :=
  AList.singleton service
    ⟨(AList.singleton first ⟨[], []⟩).insert second ⟨[], []⟩, [], []⟩

theorem populated_smallTable (service first second : Text) :
    Populated (smallTable service first second) := by
  intro other summary found
  have entry := AList.mem_lookup_iff.mp found
  rcases List.mem_singleton.mp entry with ⟨rfl, rfl⟩
  exact ⟨second, (AList.mem_insert _).mpr (Or.inl rfl)⟩

theorem populated_empty : Populated ∅ := by
  intro service summary found
  rw [AList.lookup_empty] at found
  cases found

theorem smallTable_ne_empty (service first second : Text) :
    smallTable service first second ≠ ∅ := by
  intro none
  apply eq_empty_iff.mp none service
  exact AList.mem_keys.mpr List.mem_cons_self

/-- When the only service has gone, the page keeps it in its list. -/
theorem targets_of_gone_service :
    ¬ ∀ tables : List SummaryTable, (∀ table ∈ tables, Populated table) →
      FlagsAndTargets tables := by
  intro holds
  have populated : ∀ table ∈ [smallTable ['S'] ['1'] ['2'], ∅], Populated table := by
    intro table member
    rcases List.mem_cons.mp member with rfl | member
    · exact populated_smallTable _ _ _
    · rw [List.mem_singleton.mp member]
      exact populated_empty
  have shown := (holds _ populated).2 0 1 ∅ rfl
  have built := @built_page _ _ populated 0 rfl (smallTable_ne_empty _ _ _)
  rw [built.2 rfl] at shown
  apply built.1.not_lists_nil (smallTable_ne_empty _ _ _)
  exact shown.services

/-- The lists are right for pages that are opened before the first service comes, and when one
of its instances is replaced. -/
theorem flagsAndTargets_replaced :
    FlagsAndTargets [∅, smallTable ['S'] ['1'] ['2'], smallTable ['S'] ['2'] ['3']] := by
  apply (flagsAndTargets_iff ?_).mpr
  · intro index prevTable table here next some none
    rcases index with _ | _ | index
    · cases here
      exact some rfl
    · cases next
      exact smallTable_ne_empty _ _ _ none
    · cases next
  · intro table member
    simp only [List.mem_cons, List.not_mem_nil, or_false] at member
    rcases member with rfl | rfl | rfl
    · exact populated_empty
    · exact populated_smallTable _ _ _
    · exact populated_smallTable _ _ _

end NestDaq.Controller
