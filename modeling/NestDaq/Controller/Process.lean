import NestDaq.Controller.WebGui
import NestDaq.Plugin.Subscribe

/-!
# Messages that the controller survives

An exception that leaves `ProcessData` leaves the handler of the web socket and
ends the server, and a wait loop that never ends holds the lock of the
controller. The messages that do neither are described by what they say and by
the registry in which they arrive.
-/

namespace NestDaq.Controller

open NestDaq.Message
open NestDaq.Plugin
open NestDaq.Registry
open NestDaq.Store
open RunInfo

namespace WebGui

variable (gui : WebGui) (request : Request)

/-- The key is absent or holds a string. -/
def Readable (name : Text) : Prop :=
  ∀ value, request.db.lookup (gui.runInfoKey name) = some value → ∃ text, value = .string text

/-- The key is absent or holds an integer below the largest one. -/
def Incrementable (name : Text) : Prop :=
  ∀ value, request.db.lookup (gui.runInfoKey name) = some value →
    ∃ text n, value = .string text ∧ readInteger text = some n ∧ n + 1 < integerLimit

/-- The wait loops, each for its keys and targets, end one after the other. -/
def EndsAt (polls : Nat → Db) : List (List Text × List Text) → Nat → Nat → Prop
  | [], time, later => later = time
  | (keys, targets) :: rest, time, later =>
      ∃ last, time ≤ last ∧ gui.waitDone (polls last) keys targets = true ∧
        (∀ poll, time ≤ poll → poll < last → gui.waitDone (polls poll) keys targets = false) ∧
          EndsAt polls rest (last + 1) later

/-- The wait loops among the steps. -/
def stepWaits (services instances : PTree) (steps : List PublishStep) :
    List (List Text × List Text) :=
  steps.flatMap fun
    | .publish _ => []
    | .wait targets =>
        (gui.waitKeys services.values instances.values).map fun keys => (keys, targets)

/-- The wait loops entered for a command end. -/
def WaitsEnd (arg : PTree) (v : Text) : Prop :=
  ∀ waitDeviceReadyFlag waitReadyFlag services instances,
    gui.isWaitFlagSet request waitDeviceReady = .ok waitDeviceReadyFlag →
      gui.isWaitFlagSet request waitReady = .ok waitReadyFlag →
        arg.getChild servicesField = some services →
          arg.getChild instancesField = some instances →
            ∃ later, gui.EndsAt request.polls
              (gui.stepWaits services instances
                (publishSteps v waitDeviceReadyFlag waitReadyFlag)) 0 later

/-- What each function of the table needs. -/
def Suits (arg : PTree) : Handler → Prop
  | .publish => ∀ v, arg.getOptional valueField = some v →
      (v = FairmqCommand.run → gui.Readable request runNumber ∧ request.connected = true) ∧
        (v ∈ knownCommandList → gui.WaitsEnd request arg v)
  | .get => arg.getOptional valueField = some runNumber →
      gui.Readable request runNumber ∧ gui.Readable request latestRunNumber ∧
        request.connected = true
  | .set => True
  | .incr => arg.getOptional valueField = some runNumber →
      gui.Incrementable request runNumber ∧ request.connected = true

/-- The message is JSON, and its command, if it has one, is in the table and
finds what its function needs. -/
def Harmless : Prop :=
  ∃ obj, toJson gui.readJson request.text = some obj ∧
    ∀ key, obj.getOptional commandField = some key →
      ∃ handler, initializeFunctionList.lookup key = some (some handler) ∧
        gui.Suits request obj handler

variable {gui request}

theorem get_eq_ok_iff {name : Text} : (∃ found, gui.get request name = .ok found) ↔
    gui.Readable request name := by
  unfold get Readable
  cases stored : request.db.lookup (gui.runInfoKey name) with
  | none => simp
  | some value => cases value <;> simp

theorem incremented_eq_ok_iff {name : Text} : (∃ n, gui.incremented request name = .ok n) ↔
    gui.Incrementable request name := by
  unfold incremented get Incrementable
  cases stored : request.db.lookup (gui.runInfoKey name) with
  | none => simp [bind, Except.bind]
  | some value =>
      cases value with
      | string text =>
          cases number : readInteger text with
          | none => simp [bind, Except.bind, number]
          | some n =>
              by_cases below : n + 1 < integerLimit
              · simp [bind, Except.bind, number, below]
              · simp [bind, Except.bind, number, below]
      | hash fields => simp [bind, Except.bind]
      | list items => simp [bind, Except.bind]

theorem send_eq_ok_iff {text : Text} : (∃ effects, send request text = .ok effects) ↔
    request.connected = true := by
  unfold send
  cases request.connected <;> simp

/-! ## Wait loops -/

variable {polls : Nat → Db} {services instances : PTree}

theorem waitLoop_eq_some_iff {keys targets : List Text} {fuel time later : Nat} :
    gui.waitLoop polls keys targets fuel time = some later ↔
      ∃ last, later = last + 1 ∧ time ≤ last ∧ last < time + fuel ∧
        gui.waitDone (polls last) keys targets = true ∧
          ∀ poll, time ≤ poll → poll < last → gui.waitDone (polls poll) keys targets = false := by
  induction fuel generalizing time with
  | zero =>
      simp only [waitLoop, reduceCtorEq, false_iff]
      rintro ⟨last, _, after, before, _⟩
      omega
  | succ fuel ih =>
      rw [waitLoop]
      by_cases done : gui.waitDone (polls time) keys targets = true
      · rw [if_pos done]
        constructor
        · intro equal
          cases equal
          exact ⟨time, rfl, Nat.le_refl _, by omega, done, fun poll _ _ => by omega⟩
        · rintro ⟨last, rfl, after, _, _, before⟩
          rcases Nat.eq_or_lt_of_le after with rfl | later
          · rfl
          · cases done.symm.trans (before time (Nat.le_refl _) later)
      · rw [if_neg done, ih]
        constructor
        · rintro ⟨last, equal, after, below, ends, before⟩
          refine ⟨last, equal, by omega, by omega, ends, fun poll from_ below => ?_⟩
          rcases Nat.eq_or_lt_of_le from_ with rfl | later
          · exact Bool.eq_false_iff.mpr done
          · exact before poll later below
        · rintro ⟨last, equal, after, below, ends, before⟩
          have later : time ≠ last := by
            rintro rfl
            exact done ends
          exact ⟨last, equal, by omega, by omega, ends,
            fun poll from_ => before poll (by omega)⟩

/-- Wait loops for the same targets, one after the other. -/
theorem wait_spec (targets : List Text) (keys : List (List Text)) (time later : Nat) :
    (∀ fuel, gui.wait polls targets fuel keys time = some later →
        gui.EndsAt polls (keys.map fun keys => (keys, targets)) time later) ∧
      (gui.EndsAt polls (keys.map fun keys => (keys, targets)) time later →
        ∃ enough, ∀ fuel, enough ≤ fuel →
          gui.wait polls targets fuel keys time = some later) := by
  induction keys generalizing time with
  | nil =>
      constructor
      · intro fuel equal
        cases equal
        rfl
      · intro ends
        exact ⟨0, fun fuel _ => by rw [wait, show later = time from ends]⟩
  | cons first rest ih =>
      constructor
      · intro fuel equal
        rw [wait, Option.bind_eq_bind, Option.bind_eq_some_iff] at equal
        rcases equal with ⟨middle, looped, waited⟩
        rcases waitLoop_eq_some_iff.mp looped with ⟨last, rfl, after, _, done, before⟩
        exact ⟨last, after, done, before, (ih _).1 fuel waited⟩
      · rintro ⟨last, after, done, before, ends⟩
        rcases (ih _).2 ends with ⟨enough, waited⟩
        refine ⟨max enough (last + 1), fun fuel large => ?_⟩
        have looped : gui.waitLoop polls first targets fuel time = some (last + 1) :=
          waitLoop_eq_some_iff.mpr ⟨last, rfl, after, by omega, done, before⟩
        rw [wait, looped, Option.bind_eq_bind, Option.bind_some]
        exact waited fuel (by omega)

theorem endsAt_append (first second : List (List Text × List Text)) (time later : Nat) :
    gui.EndsAt polls (first ++ second) time later ↔
      ∃ middle, gui.EndsAt polls first time middle ∧ gui.EndsAt polls second middle later := by
  induction first generalizing time with
  | nil => simp [EndsAt]
  | cons head rest ih =>
      simp only [List.cons_append, EndsAt, ih]
      constructor
      · rintro ⟨last, after, done, before, middle, ends, rest⟩
        exact ⟨middle, ⟨last, after, done, before, ends⟩, rest⟩
      · rintro ⟨middle, ⟨last, after, done, before, ends⟩, rest⟩
        exact ⟨last, after, done, before, middle, ends, rest⟩

/-- The steps of a command are taken exactly when its wait loops end. -/
theorem publishAll_spec (steps : List PublishStep) (time : Nat) :
    (∀ fuel effects, gui.publishAll request services instances fuel steps time = .ok effects →
        ∃ later, gui.EndsAt request.polls (gui.stepWaits services instances steps) time later) ∧
      ((∃ later, gui.EndsAt request.polls (gui.stepWaits services instances steps) time later) →
        ∃ enough, ∀ fuel, enough ≤ fuel → ∃ effects,
          gui.publishAll request services instances fuel steps time = .ok effects) := by
  induction steps generalizing time with
  | nil => exact ⟨fun _ _ _ => ⟨time, rfl⟩, fun _ => ⟨0, fun _ _ => ⟨[], rfl⟩⟩⟩
  | cons step rest ih =>
      cases step with
      | publish cmd =>
          constructor
          · intro fuel effects equal
            rw [publishAll] at equal
            cases taken : gui.publishAll request services instances fuel rest time with
            | error fault => simp [taken, bind, Except.bind] at equal
            | ok later => exact (ih time).1 fuel later taken
          · intro ends
            rcases (ih time).2 ends with ⟨enough, taken⟩
            refine ⟨enough, fun fuel large => ?_⟩
            rcases taken fuel large with ⟨later, equal⟩
            exact ⟨_, by rw [publishAll, equal]; rfl⟩
      | wait targets =>
          have waits : gui.stepWaits services instances (.wait targets :: rest) =
              ((gui.waitKeys services.values instances.values).map fun keys => (keys, targets)) ++
                gui.stepWaits services instances rest := by
            simp [stepWaits]
          rw [waits]
          constructor
          · intro fuel effects equal
            rw [publishAll] at equal
            cases waited : gui.wait request.polls targets fuel
                (gui.waitKeys services.values instances.values) time with
            | none => simp [waited] at equal
            | some middle =>
                simp only [waited] at equal
                rcases (ih middle).1 fuel effects equal with ⟨later, ends⟩
                exact ⟨later, (endsAt_append _ _ _ _).mpr
                  ⟨middle, (wait_spec _ _ _ _).1 fuel waited, ends⟩⟩
          · rintro ⟨later, ends⟩
            rcases (endsAt_append _ _ _ _).mp ends with ⟨middle, first, second⟩
            rcases (wait_spec _ _ _ _).2 first with ⟨enoughWait, waited⟩
            rcases (ih middle).2 ⟨later, second⟩ with ⟨enoughRest, taken⟩
            refine ⟨max enoughWait enoughRest, fun fuel large => ?_⟩
            rcases taken fuel (by omega) with ⟨effects, equal⟩
            exact ⟨effects, by rw [publishAll, waited fuel (by omega)]; exact equal⟩

theorem publishAll_error {steps : List PublishStep} {fuel time : Nat} {fault : Fault}
    (failed : gui.publishAll request services instances fuel steps time = .error fault) :
    fault = .waiting := by
  induction steps generalizing time with
  | nil => cases failed
  | cons step rest ih =>
      cases step with
      | publish cmd =>
          rw [publishAll] at failed
          cases taken : gui.publishAll request services instances fuel rest time with
          | error other =>
              rw [taken] at failed
              cases failed
              exact ih taken
          | ok later => simp [taken, bind, Except.bind, pure, Except.pure] at failed
      | wait targets =>
          rw [publishAll] at failed
          cases waited : gui.wait request.polls targets fuel
              (gui.waitKeys services.values instances.values) time with
          | none =>
              simp only [waited, Except.error.injEq] at failed
              exact failed.symm
          | some middle =>
              simp only [waited] at failed
              exact ih failed

/-! ## Functions of the table -/

variable {arg : PTree}

theorem isWaitFlagSet_error {name : Text} {fault : Fault}
    (failed : gui.isWaitFlagSet request name = .error fault) : fault = .replyError := by
  unfold isWaitFlagSet get at failed
  cases stored : request.db.lookup (gui.runInfoKey name) with
  | none => simp [stored, bind, Except.bind, pure, Except.pure] at failed
  | some value =>
      cases value <;> simp [stored, bind, Except.bind, pure, Except.pure] at failed
      · exact failed.symm
      · exact failed.symm

/-- An exception in front of the steps is caught, and the steps end with the wait loops. -/
theorem publishKnown_spec (v : Text) :
    (∀ fuel effects, caught (gui.publishKnown request arg v fuel) = .ok effects →
        gui.WaitsEnd request arg v) ∧
      (gui.WaitsEnd request arg v → ∃ enough, ∀ fuel, enough ≤ fuel → ∃ effects,
        caught (gui.publishKnown request arg v fuel) = .ok effects) := by
  unfold WaitsEnd publishKnown
  cases deviceReady : gui.isWaitFlagSet request waitDeviceReady with
  | error fault =>
      rw [isWaitFlagSet_error deviceReady]
      exact ⟨by simp, fun _ => ⟨0, fun _ _ => ⟨[], rfl⟩⟩⟩
  | ok waitDeviceReadyFlag =>
      cases ready : gui.isWaitFlagSet request waitReady with
      | error fault =>
          rw [isWaitFlagSet_error ready]
          exact ⟨by simp, fun _ => ⟨0, fun _ _ => ⟨[], rfl⟩⟩⟩
      | ok waitReadyFlag =>
          cases hasServices : arg.getChild servicesField with
          | none =>
              simp only [child, hasServices]
              exact ⟨by simp, fun _ => ⟨0, fun _ _ => ⟨[], rfl⟩⟩⟩
          | some services =>
              cases hasInstances : arg.getChild instancesField with
              | none =>
                  simp only [child, hasServices, hasInstances]
                  exact ⟨by simp, fun _ => ⟨0, fun _ _ => ⟨[], rfl⟩⟩⟩
              | some instances =>
                  have steps := @publishAll_spec gui request services instances
                    (publishSteps v waitDeviceReadyFlag waitReadyFlag) 0
                  simp only [child, hasServices, hasInstances, bind, Except.bind]
                  constructor
                  · intro fuel effects returned _ _ _ _ same other isServices isInstances
                    cases same
                    cases other
                    cases isServices
                    cases isInstances
                    cases taken : gui.publishAll request services instances fuel
                        (publishSteps v waitDeviceReadyFlag waitReadyFlag) 0 with
                    | error fault =>
                        rw [taken, publishAll_error taken] at returned
                        cases returned
                    | ok later => exact steps.1 fuel later taken
                  · intro ends
                    rcases steps.2 (ends _ _ _ _ rfl rfl rfl rfl) with ⟨enough, taken⟩
                    refine ⟨enough, fun fuel large => ?_⟩
                    rcases taken fuel large with ⟨effects, equal⟩
                    exact ⟨effects, by rw [equal]; rfl⟩

theorem bind_returns_iff {α β : Type} {x : Except Fault α} {f : α → Except Fault β} :
    (∃ result, (x >>= f) = .ok result) ↔ ∃ a, x = .ok a ∧ ∃ result, f a = .ok result := by
  cases x <;> simp [bind, Except.bind]

/-- A reply that is sent whatever the registry holds. -/
theorem get_bind_returns_iff {name : Text} {f : Option Text → Except Fault (List Effect)}
    (sends : ∀ found, (∃ effects, f found = .ok effects) ↔ request.connected = true) :
    (∃ effects, (gui.get request name >>= f) = .ok effects) ↔
      gui.Readable request name ∧ request.connected = true := by
  rw [bind_returns_iff, ← get_eq_ok_iff]
  constructor
  · rintro ⟨found, read, sent⟩
    exact ⟨⟨found, read⟩, (sends found).mp sent⟩
  · rintro ⟨⟨found, read⟩, connected⟩
    exact ⟨found, read, (sends found).mpr connected⟩

theorem copyLatestRunNumber_returns_iff :
    (∃ effects, gui.copyLatestRunNumber request = .ok effects) ↔
      gui.Readable request runNumber ∧ request.connected = true := by
  unfold copyLatestRunNumber
  apply get_bind_returns_iff
  intro found
  cases found with
  | none => exact send_eq_ok_iff
  | some number =>
      rw [bind_returns_iff, ← @send_eq_ok_iff request]
      constructor
      · rintro ⟨sent, equal, _⟩
        exact ⟨sent, equal⟩
      · rintro ⟨sent, equal⟩
        exact ⟨sent, equal, _, rfl⟩

theorem readRunNumber_returns_iff :
    (∃ effects, gui.readRunNumber request = .ok effects) ↔
      gui.Readable request runNumber ∧ request.connected = true := by
  unfold readRunNumber
  apply get_bind_returns_iff
  intro found
  cases found <;> exact send_eq_ok_iff

theorem readLatestRunNumber_returns_iff :
    (∃ effects, gui.readLatestRunNumber request = .ok effects) ↔
      gui.Readable request latestRunNumber ∧ request.connected = true := by
  unfold readLatestRunNumber
  apply get_bind_returns_iff
  intro found
  cases found <;> exact send_eq_ok_iff

theorem incrementRunNumber_returns_iff :
    (∃ effects, gui.incrementRunNumber request = .ok effects) ↔
      gui.Incrementable request runNumber ∧ request.connected = true := by
  unfold incrementRunNumber
  rw [bind_returns_iff, ← incremented_eq_ok_iff]
  constructor
  · rintro ⟨n, counted, sent⟩
    rcases bind_returns_iff.mp sent with ⟨_, equal, _⟩
    exact ⟨⟨n, counted⟩, send_eq_ok_iff.mp ⟨_, equal⟩⟩
  · rintro ⟨⟨n, counted⟩, connected⟩
    rcases send_eq_ok_iff.mpr connected with ⟨sent, equal⟩
    exact ⟨n, counted, bind_returns_iff.mpr ⟨sent, equal, _, rfl⟩⟩

theorem handleGet_returns_iff : (∃ effects, gui.handleGet request arg = .ok effects) ↔
    gui.Suits request arg .get := by
  unfold handleGet Suits
  cases asked : arg.getOptional valueField with
  | none => simp
  | some value =>
      by_cases named : value = runNumber
      · subst named
        simp only [if_true, forall_const]
        rw [bind_returns_iff]
        constructor
        · rintro ⟨number, read, rest⟩
          rcases bind_returns_iff.mp rest with ⟨latest, readLatest, _⟩
          have first := readRunNumber_returns_iff.mp ⟨number, read⟩
          have second := readLatestRunNumber_returns_iff.mp ⟨latest, readLatest⟩
          exact ⟨first.1, second.1, first.2⟩
        · rintro ⟨readable, readableLatest, connected⟩
          rcases readRunNumber_returns_iff.mpr ⟨readable, connected⟩ with ⟨number, read⟩
          rcases readLatestRunNumber_returns_iff.mpr ⟨readableLatest, connected⟩ with
            ⟨latest, readLatest⟩
          exact ⟨number, read, bind_returns_iff.mpr ⟨latest, readLatest, _, rfl⟩⟩
      · simp [named]

theorem handleIncr_returns_iff : (∃ effects, gui.handleIncr request arg = .ok effects) ↔
    gui.Suits request arg .incr := by
  unfold handleIncr Suits
  cases asked : arg.getOptional valueField with
  | none => simp
  | some value =>
      by_cases named : value = runNumber
      · subst named
        simp only [if_true, forall_const]
        exact incrementRunNumber_returns_iff
      · simp [named]

theorem handleSet_returns : ∃ effects, gui.handleSet arg = .ok effects := by
  unfold handleSet
  cases arg.getOptional nameField with
  | none => exact ⟨_, rfl⟩
  | some name =>
      by_cases known : name ∈ knownRunInfoList
      · simp only [known, if_true]
        cases arg.getOptional valueField <;> exact ⟨_, rfl⟩
      · simp only [known, if_false]
        exact ⟨_, rfl⟩

/-- What runs before the block of a published command. -/
theorem copied_returns_iff (v : Text) :
    (∃ effects, (if v = FairmqCommand.run then gui.copyLatestRunNumber request else .ok []) =
        .ok effects) ↔
      (v = FairmqCommand.run → gui.Readable request runNumber ∧ request.connected = true) := by
  by_cases runs : v = FairmqCommand.run
  · simp only [runs, if_true, forall_const]
    exact copyLatestRunNumber_returns_iff
  · simp [runs]

theorem handlePublish_spec :
    (∀ fuel effects, gui.handlePublish request arg fuel = .ok effects →
        gui.Suits request arg .publish) ∧
      (gui.Suits request arg .publish → ∃ enough, ∀ fuel, enough ≤ fuel → ∃ effects,
        gui.handlePublish request arg fuel = .ok effects) := by
  unfold handlePublish Suits
  cases asked : arg.getOptional valueField with
  | none => simp
  | some v =>
      have known := @publishKnown_spec gui request arg v
      constructor
      · intro fuel effects returned value same
        cases same
        rcases bind_returns_iff.mp ⟨effects, returned⟩ with ⟨copied, before, rest⟩
        apply And.intro ((copied_returns_iff v).mp ⟨copied, before⟩)
        intro isKnown
        simp only [isKnown, if_true] at rest
        rcases bind_returns_iff.mp rest with ⟨published, equal, _⟩
        exact known.1 fuel published equal
      · intro suits
        rcases (copied_returns_iff v).mpr (suits v rfl).1 with ⟨copied, before⟩
        by_cases isKnown : v ∈ knownCommandList
        · rcases known.2 ((suits v rfl).2 isKnown) with ⟨enough, publishes⟩
          apply Exists.intro enough
          intro fuel large
          rcases publishes fuel large with ⟨published, equal⟩
          apply bind_returns_iff.mpr ⟨copied, before, _⟩
          simp only [isKnown, if_true]
          exact bind_returns_iff.mpr ⟨published, equal, _, rfl⟩
        · apply Exists.intro 0
          intro fuel _
          apply bind_returns_iff.mpr ⟨copied, before, _⟩
          simp only [isKnown, if_false]
          exact ⟨_, rfl⟩

/-- A function of the table returns, given enough polls, exactly when the message suits it. -/
theorem call_spec (handler : Handler) :
    (∀ fuel effects, gui.call request handler arg fuel = .ok effects →
        gui.Suits request arg handler) ∧
      (gui.Suits request arg handler → ∃ enough, ∀ fuel, enough ≤ fuel → ∃ effects,
        gui.call request handler arg fuel = .ok effects) := by
  cases handler with
  | publish => exact handlePublish_spec
  | get =>
      exact ⟨fun _ effects returned => handleGet_returns_iff.mp ⟨effects, returned⟩,
        fun suits => ⟨0, fun _ _ => handleGet_returns_iff.mpr suits⟩⟩
  | set => exact ⟨fun _ _ _ => trivial, fun _ => ⟨0, fun _ _ => handleSet_returns⟩⟩
  | incr =>
      exact ⟨fun _ effects returned => handleIncr_returns_iff.mp ⟨effects, returned⟩,
        fun suits => ⟨0, fun _ _ => handleIncr_returns_iff.mpr suits⟩⟩

/-! ## Messages -/

/-- One message: when `ProcessData` returns, the table is as it was. -/
theorem processData_spec :
    (∀ fuel table effects,
        gui.processData request fuel initializeFunctionList = (table, .ok effects) →
          table = initializeFunctionList ∧ gui.Harmless request) ∧
      (gui.Harmless request → ∃ enough, ∀ fuel, enough ≤ fuel → ∃ effects,
        gui.processData request fuel initializeFunctionList =
          (initializeFunctionList, .ok effects)) := by
  unfold processData Harmless
  cases json : toJson gui.readJson request.text with
  | none => simp
  | some obj =>
      cases asked : obj.getOptional commandField with
      | none => simp [asked]
      | some key =>
          cases found : initializeFunctionList.lookup key with
          | none => simp [asked, found]
          | some entry =>
              cases entry with
              | none => simp [asked, found]
              | some handler =>
                  have calls := @call_spec gui request obj handler
                  simp only [asked, found, Prod.mk.injEq]
                  constructor
                  · rintro fuel table effects ⟨rfl, returned⟩
                    refine ⟨rfl, obj, rfl, ?_⟩
                    intro other same
                    cases asked.symm.trans same
                    exact ⟨handler, found, calls.1 fuel effects returned⟩
                  · rintro ⟨other, same, harmless⟩
                    cases same
                    rcases harmless key asked with ⟨other, same, suits⟩
                    cases found.symm.trans same
                    rcases calls.2 suits with ⟨enough, returns⟩
                    apply Exists.intro enough
                    intro fuel large
                    rcases returns fuel large with ⟨effects, equal⟩
                    exact ⟨effects, trivial, equal⟩

/-- The messages are all handled, each one as if it were the only one, and the
table stays as it was built. -/
def Survives (requests : List Request) : Prop :=
  ∃ fuel effects,
    gui.processAll fuel initializeFunctionList requests = (initializeFunctionList, .ok effects) ∧
      List.Forall₂ (fun request effects =>
        gui.processData request fuel initializeFunctionList =
          (initializeFunctionList, .ok effects)) requests effects

theorem processAll_ok {fuel : Nat} {requests : List Request} {table : FuncList}
    {effects : List (List Effect)}
    (returned : gui.processAll fuel initializeFunctionList requests = (table, .ok effects)) :
    ∀ request ∈ requests, gui.Harmless request := by
  induction requests generalizing effects with
  | nil => simp
  | cons request rest ih =>
      rw [processAll] at returned
      rcases handled : gui.processData request fuel initializeFunctionList with ⟨after, result⟩
      cases result with
      | error fault => simp [handled] at returned
      | ok first =>
          rcases processData_spec.1 fuel after first handled with ⟨rfl, harmless⟩
          rw [handled] at returned
          rcases remaining : gui.processAll fuel initializeFunctionList rest with ⟨last, result⟩
          cases result with
          | error fault => simp [remaining] at returned
          | ok later =>
              simp only [remaining, Prod.mk.injEq] at returned
              rcases returned with ⟨rfl, _⟩
              intro other listed
              rcases List.mem_cons.mp listed with rfl | listed
              · exact harmless
              · exact ih remaining other listed

theorem processAll_of_returns {fuel : Nat} {requests : List Request}
    (returns : ∀ request ∈ requests, ∃ effects,
      gui.processData request fuel initializeFunctionList =
        (initializeFunctionList, .ok effects)) :
    ∃ effects,
      gui.processAll fuel initializeFunctionList requests = (initializeFunctionList, .ok effects) ∧
        List.Forall₂ (fun request effects =>
          gui.processData request fuel initializeFunctionList =
            (initializeFunctionList, .ok effects)) requests effects := by
  induction requests with
  | nil => exact ⟨[], rfl, .nil⟩
  | cons request rest ih =>
      rcases returns request List.mem_cons_self with ⟨first, handled⟩
      rcases ih fun other listed => returns other (List.mem_cons_of_mem _ listed) with
        ⟨later, remaining, each⟩
      exact ⟨first :: later, by simp [processAll, handled, remaining], .cons handled each⟩

/-- Enough polls for every message of a list. -/
theorem enough_of_harmless {requests : List Request}
    (harmless : ∀ request ∈ requests, gui.Harmless request) :
    ∃ fuel, ∀ request ∈ requests, ∃ effects,
      gui.processData request fuel initializeFunctionList =
        (initializeFunctionList, .ok effects) := by
  suffices enoughFor : ∃ enough, ∀ fuel, enough ≤ fuel → ∀ request ∈ requests, ∃ effects,
      gui.processData request fuel initializeFunctionList =
        (initializeFunctionList, .ok effects) by
    rcases enoughFor with ⟨enough, returns⟩
    exact ⟨enough, returns enough (Nat.le_refl _)⟩
  induction requests with
  | nil => exact ⟨0, by simp⟩
  | cons request rest ih =>
      rcases processData_spec.2 (harmless request List.mem_cons_self) with ⟨first, handled⟩
      rcases ih fun other listed => harmless other (List.mem_cons_of_mem _ listed) with
        ⟨later, remaining⟩
      apply Exists.intro (max first later)
      intro fuel large other listed
      rcases List.mem_cons.mp listed with rfl | listed
      · exact handled fuel (by omega)
      · exact remaining fuel (by omega) other listed

/-- Every sequence of messages: it takes the controller down unless every message
of it is harmless. -/
theorem survives_iff (gui : WebGui) (requests : List Request) :
    gui.Survives requests ↔ ∀ request ∈ requests, gui.Harmless request := by
  constructor
  · rintro ⟨fuel, effects, returned, _⟩
    exact processAll_ok returned
  · intro harmless
    rcases enough_of_harmless harmless with ⟨fuel, returns⟩
    rcases processAll_of_returns returns with ⟨effects, returned, each⟩
    exact ⟨fuel, effects, returned, each⟩

end WebGui

/-- A message whose command is not in the table. -/
def unknownCommand : Text × PTree :=
  ("\x7b\"command\":\"restart\"\x7d".toList, .node [] [(commandField, .leaf "restart".toList)])

/-- A controller with a reader of this message; other text is malformed. -/
def controller : WebGui where
  fSeparator := colon
  fChannelName := commandChannelName
  readJson text := if text = unknownCommand.1 then some unknownCommand.2 else none
  writeJson _ := []

def unknownRequest : Request :=
  ⟨unknownCommand.1, ∅, fun _ => ∅, true⟩

/-- The empty function of an unknown command is called, and stays in the table. -/
theorem processData_unknownRequest (fuel : Nat) :
    controller.processData unknownRequest fuel initializeFunctionList =
      (initializeFunctionList.insert "restart".toList none, .error .badFunctionCall) := by
  rfl

/-- A client ends the controller with a command that it does not know. -/
theorem unknownRequest_not_survived :
    ¬ ∀ (gui : WebGui) (requests : List Request), gui.Survives requests := by
  intro survives
  rcases survives controller [unknownRequest] with ⟨fuel, effects, returned, _⟩
  rw [WebGui.processAll, processData_unknownRequest] at returned
  nomatch returned

end NestDaq.Controller
