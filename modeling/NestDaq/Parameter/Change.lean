import NestDaq.Parameter.Precedence

/-!
# Changes of parameters

The plugin reads the parameters when it is made, subscribes to the notifications of
the hash of the instance and of that of its group, and reads all parameters again for
every notification. An exception in the reading ends the loop. A change that falls
into a reading counts as one before or behind it.
-/

namespace NestDaq.Parameter

open Transition

variable {F : Type} (floating : Floating F) (reader : Reader)

/-- The properties of the device. -/
abbrev Properties (F : Type) := AList fun _ : Text => Property F

/-- How far the plugin is. -/
inductive Phase where
  | fresh
  | read
  | subscribed
  | ended
  deriving DecidableEq

/-- The database, the properties of the device, and the notifications that are not
handled yet. -/
structure State (F : Type) where
  content : Content F
  properties : Properties F
  phase : Phase := .fresh
  pending : Nat := 0

/-- What happens: the plugin is made, or subscribes; a key is written or deleted; a
notification is handled. A reading meets keys and fields in some order. -/
inductive Event (F : Type) where
  | construct (order : ∀ content : Content F, Enumeration content)
  | subscribe
  | change (key : Text) (value : Option (Stored F))
  | handle (order : ∀ content : Content F, Enumeration content)

namespace Reader

/-- The keys that `ReadParameters` reads. -/
def Reads (key : Text) : Prop :=
  key = reader.fGroupKey ∨ key = reader.fKey ∨
    Glob.stringmatch (reader.scanKey reader.fGroupKey) key ∨
    Glob.stringmatch (reader.scanKey reader.fKey) key

instance (key : Text) : Decidable (reader.Reads key) :=
  inferInstanceAs (Decidable (_ ∨ _))

/-- The keys of the two subscribed channels. -/
def Notifies (key : Text) : Prop :=
  key = reader.fKey ∨ key = reader.fGroupKey

instance (key : Text) : Decidable (reader.Notifies key) :=
  inferInstanceAs (Decidable (_ ∨ _))

/-- Write a key, or delete it. -/
def changed (content : Content F) (key : Text) : Option (Stored F) → Content F
  | some value => content.insert key value
  | none => content.erase key

/-- A reading leads to a phase, or to the end of the plugin. -/
def reading (state : State F) (order : Enumeration state.content) (phase : Phase) : State F :=
  let result := reader.readParameters floating order state.properties
  { state with
    properties := result.1
    phase := if result.2 then phase else .ended }

/-- One event. -/
def step : Step (State F) (Event F)
  | state, .construct order =>
      if state.phase = .fresh then some (reader.reading floating state (order state.content) .read)
      else none
  | state, .subscribe =>
      if state.phase = .read then some { state with phase := .subscribed } else none
  | state, .change key value =>
      if reader.Reads key then
        some { state with
          content := changed state.content key value
          pending := if state.phase = .subscribed ∧ reader.Notifies key then state.pending + 1
            else state.pending }
      else none
  | state, .handle order =>
      if state.phase = .subscribed ∧ 0 < state.pending then
        some (reader.reading floating { state with pending := state.pending - 1 }
          (order state.content) .subscribed)
      else none

/-- The properties of the parameters are those that a new instance, with properties
`initial` before it reads, would set. -/
def Converged (initial : Properties F) (state : State F) : Prop :=
  ∀ order : Enumeration state.content,
    (reader.readParameters floating order initial).2 = true ∧
      ∀ name, reader.assignmentsOf floating order name ≠ [] →
        state.properties.lookup name = (reader.readParameters floating order initial).1.lookup name

/-- Once the plugin has read and no notification is left, the properties have converged. -/
def Settled (initial : Properties F) (state : State F) : Prop :=
  state.phase ≠ .fresh → state.pending = 0 → reader.Converged floating initial state

end Reader

/-- The assignments of a parameter in the last pass that has any. -/
def lastPass (name : Text) : List (List (Assignment F)) → List (Assignment F)
  | [] => []
  | pass :: rest =>
      if lastPass name rest = [] then updatesOf Assignment.name name pass else lastPass name rest

namespace Reader

/-- A reading of a content leaves what a reading by a new instance would. -/
structure Settles (initial : Properties F) {content : Content F} (order : Enumeration content)
    (properties : Properties F) : Prop where
  consistent : ∀ name, Consistent ((properties.lookup name).map Property.kind)
    (reader.assignmentsOf floating order name)
  fresh : ∀ (other : Enumeration content) (name : Text),
    Consistent ((initial.lookup name).map Property.kind) (reader.assignmentsOf floating other name)
  single : ∀ name, ∀ first ∈ lastPass name (reader.passes floating (stored content)),
    ∀ second ∈ lastPass name (reader.passes floating (stored content)), first = second
  distinct : ∀ name, ∀ last ∈ lastPass name (reader.passes floating (stored content)),
    ∀ property, (properties.lookup name = some property ∨ initial.lookup name = some property ∨
      ∃ other ∈ reader.assignmentsOf floating (stored content) name,
        other.value = some property) →
      last.Distinct floating (some property)

/-- A reading settles the properties, and a change is followed by a reading. -/
def condition (initial : Properties F) (state : State F) : Event F → Prop
  | .construct order => reader.Settles floating initial (order state.content) state.properties
  | .subscribe => True
  | .change key _ => state.phase = .fresh ∨ 0 < state.pending ∨
      state.phase = .subscribed ∧ reader.Notifies key
  | .handle order => reader.Settles floating initial (order state.content) state.properties

end Reader

section Passes

variable {name : Text}

theorem mem_updatesOf_of_mem_lastPass {passes : List (List (Assignment F))}
    {assignment : Assignment F} (member : assignment ∈ lastPass name passes) :
    assignment ∈ updatesOf Assignment.name name passes.flatten := by
  induction passes with
  | nil => exact absurd member List.not_mem_nil
  | cons pass rest ih =>
      rw [List.flatten_cons, updatesOf_append, List.mem_append]
      rw [lastPass] at member
      split_ifs at member
      · exact Or.inl member
      · exact Or.inr (ih member)

/-- The last assignment of a parameter is in the last pass that has any. -/
theorem exists_last_updatesOf {passes : List (List (Assignment F))}
    (given : updatesOf Assignment.name name passes.flatten ≠ []) :
    ∃ front last, updatesOf Assignment.name name passes.flatten = front ++ [last] ∧
      last ∈ lastPass name passes := by
  induction passes with
  | nil => exact absurd rfl given
  | cons pass rest ih =>
      rw [List.flatten_cons, updatesOf_append] at given ⊢
      by_cases none : updatesOf Assignment.name name rest.flatten = []
      · have noRest : lastPass name rest = [] :=
          List.eq_nil_iff_forall_not_mem.mpr fun assignment member =>
            List.not_mem_nil (none ▸ mem_updatesOf_of_mem_lastPass member)
        rw [none, List.append_nil] at given ⊢
        rw [lastPass, if_pos noRest]
        exact ⟨_, _, (List.dropLast_append_getLast given).symm, List.getLast_mem given⟩
      · obtain ⟨front, last, split, member⟩ := ih none
        refine ⟨updatesOf Assignment.name name pass ++ front, last, ?_, ?_⟩
        · rw [split, List.append_assoc]
        · rw [lastPass, if_neg (List.ne_nil_of_mem member)]
          exact member

theorem lastPass_perm {first second : List (List (Assignment F))}
    (perm : List.Forall₂ List.Perm first second) :
    (lastPass name first).Perm (lastPass name second) := by
  induction perm with
  | nil => exact List.Perm.refl _
  | @cons _ _ firstRest secondRest pass _ ih =>
      rw [lastPass, lastPass]
      by_cases none : lastPass name firstRest = []
      · rw [if_pos none, if_pos (List.nil_perm.mp (none ▸ ih))]
        exact pass.filter _
      · have notNone : lastPass name secondRest ≠ [] := by
          intro other
          rw [other] at ih
          exact none (List.perm_nil.mp ih)
        rw [if_neg none, if_neg notNone]
        exact ih

end Passes

namespace Reader

variable {content : Content F} (first second : Enumeration content)

theorem readHash_perm (key : Text) :
    (reader.readHash floating first key).Perm (reader.readHash floating second key) := by
  unfold readHash
  split
  · exact List.Perm.refl _
  · rename_i hash found
    exact ((first.fields_perm key hash found).trans
      (second.fields_perm key hash found).symm).flatMap_right _
  · exact List.Perm.refl _

theorem readKey_perm (key : Text) :
    (reader.readKey floating first key).Perm (reader.readKey floating second key) := by
  unfold readKey
  split
  all_goals first
    | exact readHash_perm floating reader first second key
    | exact List.Perm.refl _

theorem readBelow_perm (key : Text) :
    (reader.readBelow floating first key).Perm (reader.readBelow floating second key) := by
  unfold readBelow
  split
  · exact List.Perm.refl _
  · exact ((first.keys_perm _).trans (second.keys_perm _).symm).flatMap
      fun key _ => readKey_perm floating reader first second key

/-- Two readings of a content make the same assignments in each pass. -/
theorem passes_perm :
    List.Forall₂ List.Perm (reader.passes floating first) (reader.passes floating second) :=
  .cons (readHash_perm ..) (.cons (readHash_perm ..)
    (.cons (readBelow_perm ..) (.cons (readBelow_perm ..) .nil)))

theorem assignments_perm :
    (reader.assignments floating first).Perm (reader.assignments floating second) :=
  List.Perm.flatten_congr (passes_perm floating reader first second)

theorem mem_assignmentsOf_iff {name : Text} {assignment : Assignment F} :
    assignment ∈ reader.assignmentsOf floating first name ↔
      assignment ∈ reader.assignmentsOf floating second name :=
  ((assignments_perm floating reader first second).filter _).mem_iff

end Reader

/-! ## The value a reading leaves -/

/-- A property comes from before or from one of the assignments. -/
theorem eq_or_exists_of_run {property after : Option (Property F)} {items : List (Assignment F)}
    (ran : run (follow (Assignment.effect floating)) property items = some after) :
    after = property ∨ ∃ assignment ∈ items, assignment.value = after := by
  induction items generalizing property with
  | nil => exact Or.inl (Option.some.inj ran).symm
  | cons assignment rest ih =>
      obtain ⟨next, stepped, ran⟩ := (run_cons_eq_some_iff _ _ _ _ _).mp ran
      obtain ⟨value, affected, rfl⟩ := Option.map_eq_some_iff.mp stepped
      rcases ih ran with rfl | ⟨other, member, same⟩
      · rcases Assignment.effect_eq_some floating affected with same | ⟨old, new, rfl, -, -, rfl⟩
        · exact Or.inr ⟨assignment, List.mem_cons_self, same⟩
        · exact Or.inl rfl
      · exact Or.inr ⟨other, List.mem_cons_of_mem _ member, same⟩

/-- The last assignment decides, unless a number before it is within epsilon. -/
theorem value_eq_of_run {property after : Option (Property F)} {front : List (Assignment F)}
    {last : Assignment F}
    (ran : run (follow (Assignment.effect floating)) property (front ++ [last]) = some after)
    (distinct : ∀ before, (property = some before ∨
      ∃ other ∈ front, other.value = some before) → last.Distinct floating (some before)) :
    last.value = after := by
  rw [run_append, Option.bind_eq_some_iff] at ran
  obtain ⟨middle, first, ran⟩ := ran
  obtain ⟨next, stepped, ran⟩ := (run_cons_eq_some_iff _ _ _ _ _).mp ran
  obtain ⟨value, affected, rfl⟩ := Option.map_eq_some_iff.mp stepped
  obtain rfl := Option.some.inj ran
  rw [last.value_eq_iff floating affected]
  cases middle with
  | none =>
      rintro old new none
      cases none
  | some before =>
      apply distinct before
      rcases eq_or_exists_of_run floating first with same | ⟨other, member, same⟩
      · exact Or.inl same.symm
      · exact Or.inr ⟨other, member, same⟩

namespace Reader

variable {floating reader} {initial properties : Properties F} {content : Content F}
  {order : Enumeration content}

/-- A reading that settles the properties returns and leaves those of a new instance. -/
theorem Settles.converged (settles : reader.Settles floating initial order properties) :
    (reader.readParameters floating order properties).2 = true ∧
      ∀ other : Enumeration content,
        (reader.readParameters floating other initial).2 = true ∧
          ∀ name, reader.assignmentsOf floating other name ≠ [] →
            (reader.readParameters floating order properties).1.lookup name =
              (reader.readParameters floating other initial).1.lookup name := by
  have returns := (reader.readParameters_returns_iff floating order).mpr settles.consistent
  refine ⟨returns, fun other => ?_⟩
  have otherReturns := (reader.readParameters_returns_iff floating other).mpr (settles.fresh other)
  refine ⟨otherReturns, fun name given => ?_⟩
  have inStored {any : Enumeration content} {assignment : Assignment F}
      (member : assignment ∈ lastPass name (reader.passes floating any)) :
      assignment ∈ lastPass name (reader.passes floating (stored content)) :=
    (lastPass_perm (passes_perm floating reader any (stored content))).mem_iff.mp member
  obtain ⟨otherFront, last, otherSplit, otherMember⟩ := exists_last_updatesOf given
  have someGiven : reader.assignmentsOf floating order name ≠ [] :=
    List.ne_nil_of_mem ((mem_assignmentsOf_iff floating reader other order).mp
      (mem_updatesOf_of_mem_lastPass otherMember))
  obtain ⟨front, first, split, member⟩ := exists_last_updatesOf someGiven
  obtain rfl : first = last :=
    settles.single name first (inStored member) last (inStored otherMember)
  have distinct := settles.distinct name first (inStored member)
  have ran := lookup_readParameters floating reader order returns name
  have otherRan := lookup_readParameters floating reader other otherReturns name
  rw [show reader.assignmentsOf floating order name = _ from split] at ran
  rw [show reader.assignmentsOf floating other name = _ from otherSplit] at otherRan
  refine (value_eq_of_run floating ran fun before source => distinct before ?_).symm.trans
    (value_eq_of_run floating otherRan fun before source => distinct before ?_)
  · refine source.imp_right fun ⟨assignment, inFront, same⟩ => Or.inr ⟨assignment, ?_, same⟩
    apply (mem_assignmentsOf_iff floating reader order (stored content)).mp
    exact (show reader.assignmentsOf floating order name = _ from split) ▸
      List.mem_append_left _ inFront
  · refine Or.inr (source.imp_right fun ⟨assignment, inFront, same⟩ => ⟨assignment, ?_, same⟩)
    apply (mem_assignmentsOf_iff floating reader other (stored content)).mp
    exact (show reader.assignmentsOf floating other name = _ from otherSplit) ▸
      List.mem_append_left _ inFront

/-- A step that meets the condition keeps the properties settled. -/
theorem settled_step {state next : State F} {event : Event F}
    (settled : reader.Settled floating initial state)
    (meets : reader.condition floating initial state event)
    (stepped : reader.step floating state event = some next) :
    reader.Settled floating initial next := by
  cases event with
  | construct order =>
      rw [step] at stepped
      split_ifs at stepped
      obtain rfl := Option.some.inj stepped
      intro _ _
      exact fun other => ⟨(meets.converged.2 other).1, (meets.converged.2 other).2⟩
  | subscribe =>
      rw [step] at stepped
      split_ifs at stepped with hasRead
      obtain rfl := Option.some.inj stepped
      intro _ noneLeft
      exact settled (by rw [hasRead]; decide) noneLeft
  | change key value =>
      rw [step] at stepped
      split_ifs at stepped with _ notified
      · obtain rfl := Option.some.inj stepped
        intro _ noneLeft
        exact absurd noneLeft (Nat.succ_ne_zero _)
      · obtain rfl := Option.some.inj stepped
        intro notFresh noneLeft
        rcases meets with isFresh | left | both
        · exact absurd isFresh notFresh
        · exact absurd noneLeft (Nat.pos_iff_ne_zero.mp left)
        · exact absurd both notified
  | handle order =>
      rw [step] at stepped
      split_ifs at stepped
      obtain rfl := Option.some.inj stepped
      intro _ _
      exact fun other => ⟨(meets.converged.2 other).1, (meets.converged.2 other).2⟩

/-- The plugin before it is made. -/
def start (content : Content F) (initial : Properties F) : State F where
  content := content
  properties := initial

end Reader

/-! ## A text that loses its comma -/

/-- The hash of one amplifier with a gain. -/
def gainContent (text : Text) : Content Int :=
  AList.singleton "parameters:Amplifier-0".toList (.hash (AList.singleton "gain".toList text))

def firstAmplifier : Reader where
  fId := "Amplifier-0".toList
  fSeparator := [':']

/-- The gain is written while the plugin runs. -/
def gainEvents (text : Text) : List (Event Int) :=
  [.construct stored, .subscribe,
    .change "parameters:Amplifier-0".toList (some (.hash (AList.singleton "gain".toList text))),
    .handle stored]

/-- A reading of the gain makes one assignment, in whatever order. -/
theorem assignments_gainContent (text : Text) (noComma : ',' ∉ text)
    (order : Enumeration (gainContent text)) :
    firstAmplifier.assignments wholeNumbers order = [.renew "gain".toList (.string text)] := by
  have fields : order.fields "parameters:Amplifier-0".toList = [("gain".toList, text)] :=
    List.perm_singleton.mp (order.fields_perm _ (AList.singleton "gain".toList text) rfl)
  have below (key : Text)
      (different : ¬ Glob.stringmatch
        (firstAmplifier.scanKey key) "parameters:Amplifier-0".toList) :
      firstAmplifier.readBelow wholeNumbers order key = [] := by
    have none : order.keys (firstAmplifier.scanKey key) = [] := by
      apply List.perm_nil.mp ((order.keys_perm _).trans (List.Perm.of_eq _))
      rw [List.filter_eq_nil_iff]
      intro found member
      obtain rfl := List.mem_singleton.mp member
      exact different
    rw [Reader.readBelow, none]
    split_ifs <;> rfl
  have group : firstAmplifier.fGroupKey = "parameters:Amplifier".toList := by decide +kernel
  have key : firstAmplifier.fKey = "parameters:Amplifier-0".toList := rfl
  have hash : firstAmplifier.readHash wholeNumbers order "parameters:Amplifier-0".toList =
      [.renew "gain".toList (.string text)] := by
    have notReserved : isReservedOption "gain".toList = false := by decide
    have stored : (gainContent text).lookup "parameters:Amplifier-0".toList =
        some (.hash (AList.singleton "gain".toList text)) := rfl
    simp only [Reader.readHash, stored, fields, List.flatMap_cons, List.flatMap_nil,
      List.append_nil, Reader.fieldName_level (Or.inl key)]
    rw [parse, notReserved, if_neg Bool.false_ne_true, if_pos noComma]
  have groupHash : firstAmplifier.readHash wholeNumbers order "parameters:Amplifier".toList = [] :=
    rfl
  rw [Reader.assignments, Reader.passes, group, key, hash, groupHash,
    below _ (by decide +kernel), below _ (by decide +kernel)]
  rfl

theorem settles_gainContent (text : Text) (noComma : ',' ∉ text)
    (order : Enumeration (gainContent text)) (properties : Properties Int)
    (fits : ∀ property, properties.lookup "gain".toList = some property →
      property.kind = .string) :
    firstAmplifier.Settles wholeNumbers noProperties order properties := by
  have only (other : Enumeration (gainContent text)) (name : Text) {assignment : Assignment Int}
      (member : assignment ∈ firstAmplifier.assignmentsOf wholeNumbers other name) :
      assignment = .renew "gain".toList (.string text) := by
    have inAll := (mem_updatesOf Assignment.name).mp member
    rw [assignments_gainContent text noComma other] at inAll
    exact List.mem_singleton.mp inAll.1
  have inOnly {name : Text} {assignment : Assignment Int}
      (member : assignment ∈ lastPass name
        (firstAmplifier.passes wholeNumbers (stored (gainContent text)))) :=
    only (stored (gainContent text)) name (mem_updatesOf_of_mem_lastPass member)
  have consistent (other : Enumeration (gainContent text)) (name : Text) (kind : Option Kind)
      (kinds : name = "gain".toList → kind = none ∨ kind = some .string) :
      Consistent kind (firstAmplifier.assignmentsOf wholeNumbers other name) := by
    rw [Reader.assignmentsOf, assignments_gainContent text noComma other]
    by_cases named : "gain".toList = name
    · rw [@updatesOf_cons_of_eq _ _ _ Assignment.name name
        (.renew "gain".toList (.string text)) named]
      exact ⟨kinds named.symm, True.intro⟩
    · rw [@updatesOf_cons_of_ne _ _ _ Assignment.name name
        (.renew "gain".toList (.string text)) named]
      exact True.intro
  constructor
  · intro name
    apply consistent
    rintro rfl
    cases found : properties.lookup "gain".toList with
    | none => exact Or.inl rfl
    | some property => exact Or.inr (congrArg some (fits property found))
  · exact fun other name => consistent other name none fun _ => Or.inl rfl
  · intro name first firstMember second secondMember
    rw [inOnly firstMember, inOnly secondMember]
  · rintro name last member property - old new - isNumber
    rw [inOnly member] at isNumber
    cases isNumber

theorem meets_gainEvents :
    Meets (firstAmplifier.step wholeNumbers) (firstAmplifier.condition wholeNumbers noProperties)
      (Reader.start (gainContent ['1']) noProperties) (gainEvents ['2']) := by
  refine ⟨settles_gainContent _ (by decide) _ _
    (fun _ none => nomatch none), fun next stepped => ?_⟩
  obtain rfl := Option.some.inj stepped
  refine ⟨True.intro, fun next stepped => ?_⟩
  rw [Reader.step, if_pos (by decide +kernel)] at stepped
  obtain rfl := Option.some.inj stepped
  refine ⟨Or.inr (Or.inr ⟨rfl, Or.inl rfl⟩), fun next stepped => ?_⟩
  rw [Reader.step, if_pos (by decide +kernel)] at stepped
  obtain rfl := Option.some.inj stepped
  refine ⟨settles_gainContent ['2'] (by decide) _ _ ?_, fun _ _ => True.intro⟩
  intro property found
  have read : (firstAmplifier.readParameters wholeNumbers (stored (gainContent ['1']))
      noProperties).1.lookup "gain".toList = some (.scalar (.string ['1'])) := by decide +kernel
  obtain rfl := Option.some.inj (read.symm.trans found)
  rfl

/-- The loop has ended and no notification is left, and the gain is not the one that a
new instance would set. -/
def Stale (state : State Int) : Prop :=
  state.phase = .ended ∧ state.pending = 0 ∧
    firstAmplifier.assignmentsOf wholeNumbers (stored state.content) "gain".toList ≠ [] ∧
    state.properties.lookup "gain".toList ≠
      (firstAmplifier.readParameters wholeNumbers (stored state.content) noProperties).1.lookup
        "gain".toList

instance (state : State Int) : Decidable (Stale state) :=
  inferInstanceAs (Decidable (_ ∧ _))

end NestDaq.Parameter
