import NestDaq.Controller.WebGui
import NestDaq.Plugin.Subscribe
import NestDaq.Transition.Run

/-!
# The run number of a run

The controller copies the run number when it publishes `RUN`, and every device reads it
again when it changes its state. Between the two any client may write another number.
-/

namespace NestDaq.Controller

open NestDaq.Message
open NestDaq.Plugin
open NestDaq.Store
open NestDaq.Transition
open RunInfo

/-! ## The controller, the channel and the devices -/

/-- A message of the command channel, with the latest run number when it was published. -/
structure Sent where
  message : Published
  latest : Option Text

/-- A device: the messages that it has not read, the `RUN` that it follows before the
callback of `Running` reads the run number and after it, and its property. -/
structure RunDevice where
  inbox : List Sent
  entering : Option Sent
  running : Option Sent
  runNumber : Option Text

/-- The registry, what a request has still to do, and the devices. -/
structure RunSystem (ι : Type) where
  db : Db
  todo : List Effect
  devices : ι → RunDevice

inductive RunAction (ι : Type)
  /-- `ProcessData` with the message of a client. -/
  | request (text : Text) (polls : Nat → Db) (connected : Bool) (fuel : Nat)
  /-- The next thing that the request does. -/
  | effect
  /-- The device reads a message, and starts running or does not. -/
  | receive (i : ι) (starts : Bool)
  /-- The callback of `Running`. -/
  | enterRunning (i : ι)
  /-- The callback of any other state. -/
  | changeState (i : ι)

/-- `INCR`, for a value that it accepts. -/
def increment (db : Db) (key : Text) : Db :=
  match db.lookup key with
  | none => Store.set db key (Text.toString 1)
  | some (.string text) =>
      match WebGui.readInteger text with
      | none => db
      | some n => Store.set db key (Text.toString (n + 1))
  | some _ => db

section Step

variable {ι : Type} (gui : WebGui) (sub : ι → Subscriber Unit)

/-- The run number in the registry. -/
def WebGui.currentRunNumber (db : Db) : Option Text :=
  Store.get db (gui.runInfoKey runNumber)

/-- The latest run number in the registry. -/
def WebGui.currentLatest (db : Db) : Option Text :=
  Store.get db (gui.runInfoKey latestRunNumber)

/-- `ReadRunNumber` of the device. A number that cannot be read leaves the property. -/
def RunDevice.readRunNumber (db : Db) (device : RunDevice) : RunDevice :=
  { device with runNumber := (gui.currentRunNumber db).or device.runNumber }

/-- One effect of a request. A published message goes to every device. -/
def RunSystem.apply (system : RunSystem ι) : Effect → RunSystem ι
  | .set key text => { system with db := Store.set system.db key text }
  | .incr key => { system with db := increment system.db key }
  | .publish channel text =>
      { system with
        devices := fun i =>
          { system.devices i with
            inbox := (system.devices i).inbox ++
              [⟨⟨channel, text⟩, gui.currentLatest system.db⟩] } }
  | .send _ => system

/-- The device executes the message as `RUN`. -/
def Starts (i : ι) (message : Published) : Prop :=
  (sub i).selected message = some FairmqCommand.run

instance (i : ι) (message : Published) : Decidable (Starts sub i message) :=
  inferInstanceAs (Decidable (_ = _))

variable [DecidableEq ι]

/-- Change one device. -/
def RunSystem.setDevice (system : RunSystem ι) (i : ι) (device : RunDevice) : RunSystem ι :=
  { system with devices := Function.update system.devices i device }

/-- One step of the controller or of a device. A request is processed when the one before
it has returned; a request that fails has published no `RUN`. -/
def runNumberStep : Step (RunSystem ι) (RunAction ι)
  | system, .request text polls connected fuel =>
      if system.todo = [] then
        match (gui.processData ⟨text, system.db, polls, connected⟩ fuel
            initializeFunctionList).2 with
        | .ok effects => some { system with todo := effects }
        | .error _ => none
      else none
  | system, .effect =>
      match system.todo with
      | [] => none
      | effect :: rest => some { system.apply gui effect with todo := rest }
  | system, .receive i starts =>
      match (system.devices i).inbox with
      | [] => none
      | sent :: rest =>
          if starts then
            if Starts sub i sent.message ∧ (system.devices i).entering = none ∧
                (system.devices i).running = none then
              some (system.setDevice i
                { system.devices i with inbox := rest, entering := some sent })
            else none
          else some (system.setDevice i { system.devices i with inbox := rest })
  | system, .enterRunning i =>
      match (system.devices i).entering with
      | none => none
      | some sent =>
          some (system.setDevice i
            ({ system.devices i with entering := none, running := some sent }.readRunNumber gui
              system.db))
  | system, .changeState i =>
      some (system.setDevice i
        ({ system.devices i with running := none }.readRunNumber gui system.db))

end Step

section Condition

variable {ι : Type} (gui : WebGui) (sub : ι → Subscriber Unit)

/-- The devices that run because of one `RUN` have the run number that was copied for it. -/
def Agreed (system : RunSystem ι) : Prop :=
  (∀ i sent, (system.devices i).running = some sent →
      (system.devices i).runNumber = sent.latest) ∧
    ∀ i j sent, (system.devices i).running = some sent →
      (system.devices j).running = some sent →
        (system.devices i).runNumber = (system.devices j).runNumber

/-- The device has still to read the run number for the `RUN`. -/
def Pending (system : RunSystem ι) (i : ι) (sent : Sent) : Prop :=
  (system.devices i).entering = some sent ∨
    sent ∈ (system.devices i).inbox ∧ Starts sub i sent.message

/-- The message sets the run number to another value or increments it. -/
def ChangesRunNumber (db : Db) (text : Text) : Prop :=
  ∃ obj, toJson gui.readJson text = some obj ∧
    (obj.getOptional commandField = some redisSet ∧
        obj.getOptional nameField = some runNumber ∧
          (∃ value, obj.getOptional valueField = some value ∧
            gui.currentRunNumber db ≠ some value) ∨
      obj.getOptional commandField = some redisIncr ∧
        obj.getOptional valueField = some runNumber)

/-- The message publishes `RUN`. -/
def PublishesRun (text : Text) : Prop :=
  ∃ obj, toJson gui.readJson text = some obj ∧
    obj.getOptional commandField = some redisPublish ∧
      obj.getOptional valueField = some FairmqCommand.run

/-- The run number changes only while no device has still to read it, and `RUN` is
published only when there is a run number. -/
def KeepsRunNumber (system : RunSystem ι) : RunAction ι → Prop
  | .request text _ _ _ =>
      (ChangesRunNumber gui system.db text → ∀ i sent, ¬ Pending sub system i sent) ∧
        (PublishesRun gui text → gui.currentRunNumber system.db ≠ none)
  | _ => True

/-- An instance that accepts a published message reads the command that was published. -/
def ReadsBack : Prop :=
  ∀ i services instances, ∀ cmd ∈ knownCommandList, ∀ channel value,
    (sub i).selected ⟨channel, gui.toMessage services instances cmd⟩ = some value → value = cmd

/-- No message is under way. -/
structure RunInitial (system : RunSystem ι) : Prop where
  todo : system.todo = []
  inbox : ∀ i, (system.devices i).inbox = []
  entering : ∀ i, (system.devices i).entering = none
  running : ∀ i, (system.devices i).running = none

end Condition

/-! ## What a request does -/

section Effects

variable (gui : WebGui)

/-- The effect publishes no `RUN` and leaves the current run number as it is. -/
def Quiet (current : Option Text) : Effect → Prop
  | .set key text => key = gui.runInfoKey runNumber → current = some text
  | .incr key => key ≠ gui.runInfoKey runNumber
  | .publish _ text => ∃ services instances, ∃ cmd ∈ knownCommandList,
      cmd ≠ FairmqCommand.run ∧ text = gui.toMessage services instances cmd
  | .send _ => True

/-- The effect writes nothing. -/
def Passes : Effect → Prop
  | .set _ _ => False
  | .incr _ => False
  | .publish _ text => ∃ services instances, ∃ cmd ∈ knownCommandList,
      text = gui.toMessage services instances cmd
  | .send _ => True

/-- The effect publishes nothing. -/
def Silent : Effect → Prop
  | .publish _ _ => False
  | _ => True

/-- What a request that returns does. -/
inductive Outcome (db : Db) (text : Text) : List Effect → Prop
  | quiet (effects : List Effect)
      (all : ∀ effect ∈ effects, Quiet gui (gui.currentRunNumber db) effect) :
      Outcome db text effects
  | copies (number : Text) (rest : List Effect)
      (current : gui.currentRunNumber db = some number)
      (all : ∀ effect ∈ rest, Passes gui effect) :
      Outcome db text (.set (gui.runInfoKey latestRunNumber) number :: rest)
  | uncopied (effects : List Effect) (publishes : PublishesRun gui text)
      (absent : gui.currentRunNumber db = none) : Outcome db text effects
  | changes (effects : List Effect) (changed : ChangesRunNumber gui db text)
      (all : ∀ effect ∈ effects, Silent effect) : Outcome db text effects

variable {gui} {request : Request} {arg : PTree} {effects : List Effect}

theorem ok_of_bind {α β : Type} {x : Except Fault α} {f : α → Except Fault β} {b : β}
    (returned : x >>= f = .ok b) : ∃ a, x = .ok a ∧ f a = .ok b := by
  cases x with
  | error fault => cases returned
  | ok a => exact ⟨a, rfl, returned⟩

theorem send_effects {text : Text} (returned : WebGui.send request text = .ok effects) :
    effects = [.send text] := by
  rw [WebGui.send] at returned
  split at returned
  · cases returned
    rfl
  · cases returned

/-- What `GET` reads is what the registry holds. -/
theorem get_of_ok {name : Text} {found : Option Text}
    (returned : gui.get request name = .ok found) :
    Store.get request.db (gui.runInfoKey name) = found := by
  rw [WebGui.get] at returned
  rw [Store.get]
  split at returned <;> cases returned <;> simp_all

theorem runInfoKey_inj {first second : Text} :
    gui.runInfoKey first = gui.runInfoKey second ↔ first = second := by
  simp [WebGui.runInfoKey]

/-- The reads of `redis-get` only answer the client. -/
theorem read_effects {name : Text} {absent : Text} {present : Text → Text}
    (returned : (do
      match ← gui.get request name with
      | none => WebGui.send request absent
      | some number => WebGui.send request (present number)) = Except.ok effects) :
    ∃ text, effects = [.send text] := by
  rcases ok_of_bind returned with ⟨found, _, rest⟩
  cases found with
  | none => exact ⟨_, send_effects rest⟩
  | some number => exact ⟨_, send_effects rest⟩

theorem handleGet_effects (returned : gui.handleGet request arg = .ok effects) :
    ∀ effect ∈ effects, ∃ text, effect = .send text := by
  rw [WebGui.handleGet] at returned
  split at returned
  · cases returned
    exact nofun
  · split at returned
    · rcases ok_of_bind returned with ⟨first, isFirst, rest⟩
      rcases ok_of_bind rest with ⟨second, isSecond, equal⟩
      cases equal
      rcases read_effects isFirst with ⟨one, rfl⟩
      rcases read_effects isSecond with ⟨two, rfl⟩
      simp
    · cases returned
      exact nofun

/-- A written number is another one, or the one that is there. -/
theorem handleSet_effects {text : Text} (json : toJson gui.readJson text = some arg)
    (command : arg.getOptional commandField = some redisSet)
    (returned : gui.handleSet arg = .ok effects) :
    Outcome gui request.db text effects := by
  have nothing : Outcome gui request.db text [] := .quiet [] nofun
  rw [WebGui.handleSet] at returned
  split at returned
  · cases returned
    exact nothing
  · rename_i name isName
    split at returned
    · split at returned
      · cases returned
        exact nothing
      · rename_i value isValue
        cases returned
        by_cases changes : name = runNumber ∧ gui.currentRunNumber request.db ≠ some value
        · apply Outcome.changes
          · exact ⟨arg, json, Or.inl ⟨command, changes.1 ▸ isName, value, isValue, changes.2⟩⟩
          · intro effect member
            rw [List.mem_singleton.mp member]
            trivial
        · apply Outcome.quiet
          intro effect member
          rw [List.mem_singleton.mp member]
          intro same
          exact not_not.mp fun differs => changes ⟨runInfoKey_inj.mp same, differs⟩
    · cases returned
      exact nothing

theorem handleIncr_effects {text : Text} (json : toJson gui.readJson text = some arg)
    (command : arg.getOptional commandField = some redisIncr)
    (returned : gui.handleIncr request arg = .ok effects) :
    Outcome gui request.db text effects := by
  have nothing : Outcome gui request.db text [] := .quiet [] nofun
  rw [WebGui.handleIncr] at returned
  split at returned
  · cases returned
    exact nothing
  · rename_i value isValue
    split at returned
    · rename_i isRunNumber
      rcases ok_of_bind returned with ⟨newValue, _, rest⟩
      rcases ok_of_bind rest with ⟨sent, isSent, equal⟩
      cases equal
      apply Outcome.changes
      · exact ⟨arg, json, Or.inr ⟨command, isRunNumber ▸ isValue⟩⟩
      · rw [send_effects isSent]
        simp [Silent]
    · cases returned
      exact nothing

/-- The messages that are published are those of the steps. -/
theorem publishAll_effects {services instances : PTree} {fuel : Nat}
    {steps : List WebGui.PublishStep} {time : Nat}
    (returned : gui.publishAll request services instances fuel steps time = .ok effects) :
    ∀ effect ∈ effects, ∃ cmd, .publish cmd ∈ steps ∧
      effect = .publish gui.fChannelName (gui.toMessage services instances cmd) := by
  induction steps generalizing time effects with
  | nil =>
      cases returned
      exact nofun
  | cons step steps ih =>
      cases step with
      | publish cmd =>
          rcases ok_of_bind returned with ⟨later, isLater, equal⟩
          cases equal
          intro effect member
          rcases List.mem_cons.mp member with rfl | member
          · exact ⟨cmd, List.mem_cons_self, rfl⟩
          · rcases ih isLater effect member with ⟨other, isStep, equal⟩
            exact ⟨other, List.mem_cons_of_mem _ isStep, equal⟩
      | wait targets =>
          rw [WebGui.publishAll] at returned
          split at returned
          · cases returned
          · intro effect member
            rcases ih returned effect member with ⟨other, isStep, equal⟩
            exact ⟨other, List.mem_cons_of_mem _ isStep, equal⟩

/-- The command of a step. -/
def stepCommand : WebGui.PublishStep → Option Text
  | .publish cmd => some cmd
  | .wait _ => none

/-- The commands published for a known command are known, and `RUN` only for `RUN`. -/
theorem mem_publishSteps {v cmd : Text} (known : v ∈ knownCommandList) {connects tasks : Bool}
    (isStep : .publish cmd ∈ WebGui.publishSteps v connects tasks) :
    cmd ∈ knownCommandList ∧ (cmd = FairmqCommand.run → v = FairmqCommand.run) := by
  have table : ∀ v ∈ knownCommandList, ∀ connects tasks : Bool,
      ∀ cmd ∈ (WebGui.publishSteps v connects tasks).filterMap stepCommand,
        cmd ∈ knownCommandList ∧ (cmd = FairmqCommand.run → v = FairmqCommand.run) := by
    decide +kernel
  exact table v known connects tasks cmd (List.mem_filterMap.mpr ⟨_, isStep, rfl⟩)

theorem publishKnown_effects {v : Text} {fuel : Nat} (known : v ∈ knownCommandList)
    (returned : WebGui.caught (gui.publishKnown request arg v fuel) = .ok effects) :
    ∀ effect ∈ effects, ∃ services instances, ∃ cmd ∈ knownCommandList,
      (cmd = FairmqCommand.run → v = FairmqCommand.run) ∧
        effect = .publish gui.fChannelName (gui.toMessage services instances cmd) := by
  cases published : gui.publishKnown request arg v fuel with
  | error fault =>
      rw [published] at returned
      cases fault <;> cases returned <;> exact nofun
  | ok found =>
      rw [published] at returned
      cases returned
      rcases ok_of_bind published with ⟨connects, _, rest⟩
      rcases ok_of_bind rest with ⟨tasks, _, rest⟩
      rcases ok_of_bind rest with ⟨services, _, rest⟩
      rcases ok_of_bind rest with ⟨instances, _, rest⟩
      intro effect member
      rcases publishAll_effects rest effect member with ⟨cmd, isStep, equal⟩
      have both := mem_publishSteps known isStep
      exact ⟨services, instances, cmd, both.1, both.2, equal⟩

theorem handlePublish_effects {text : Text} {fuel : Nat}
    (json : toJson gui.readJson text = some arg)
    (command : arg.getOptional commandField = some redisPublish)
    (returned : gui.handlePublish request arg fuel = .ok effects) :
    Outcome gui request.db text effects := by
  rw [WebGui.handlePublish] at returned
  split at returned
  · cases returned
    exact .quiet [] nofun
  · rename_i v isValue
    rcases ok_of_bind returned with ⟨copied, isCopied, rest⟩
    have published : ∃ later, effects = copied ++ later ∧ ∀ effect ∈ later,
        ∃ services instances, ∃ cmd ∈ knownCommandList,
          (cmd = FairmqCommand.run → v = FairmqCommand.run) ∧
            effect = .publish gui.fChannelName (gui.toMessage services instances cmd) := by
      split at rest
      · rename_i known
        rcases ok_of_bind rest with ⟨later, isLater, equal⟩
        cases equal
        exact ⟨later, rfl, publishKnown_effects known isLater⟩
      · cases rest
        exact ⟨[], (List.append_nil _).symm, nofun⟩
    rcases published with ⟨later, rfl, published⟩
    by_cases isRun : v = FairmqCommand.run
    · rw [if_pos isRun] at isCopied
      rcases ok_of_bind isCopied with ⟨found, isFound, rest⟩
      have current := get_of_ok isFound
      cases found with
      | none => exact .uncopied _ ⟨arg, json, command, isRun ▸ isValue⟩ current
      | some number =>
          rcases ok_of_bind rest with ⟨sent, isSent, equal⟩
          cases equal
          rw [List.cons_append, send_effects isSent]
          apply Outcome.copies number _ current
          intro effect member
          rcases List.mem_cons.mp member with rfl | member
          · trivial
          · rcases published effect member with ⟨services, instances, cmd, known, _, rfl⟩
            exact ⟨services, instances, cmd, known, rfl⟩
    · rw [if_neg isRun] at isCopied
      cases isCopied
      apply Outcome.quiet
      intro effect member
      rcases published effect member with ⟨services, instances, cmd, known, onlyRun, rfl⟩
      exact ⟨services, instances, cmd, known, fun same => isRun (onlyRun same), rfl⟩

/-- The functions of the table. -/
theorem handler_cases {key : Text} {handler : Handler}
    (found : initializeFunctionList.lookup key = some (some handler)) :
    key = redisPublish ∧ handler = .publish ∨ key = redisGet ∧ handler = .get ∨
      key = redisSet ∧ handler = .set ∨ key = redisIncr ∧ handler = .incr := by
  have member := AList.mem_lookup_iff.mp found
  have entries : initializeFunctionList.entries =
      [⟨redisPublish, some .publish⟩, ⟨redisGet, some .get⟩, ⟨redisSet, some .set⟩,
        ⟨redisIncr, some .incr⟩] := by
    decide
  rw [entries] at member
  simpa using member

/-- Every request that returns has one of the outcomes. -/
theorem processData_effects {fuel : Nat}
    (returned : (gui.processData request fuel initializeFunctionList).2 = .ok effects) :
    Outcome gui request.db request.text effects := by
  have nothing : Outcome gui request.db request.text [] := .quiet [] nofun
  rw [WebGui.processData] at returned
  split at returned
  · cases returned
  · rename_i obj json
    split at returned
    · cases returned
      exact nothing
    · rename_i key command
      split at returned
      · cases returned
      · cases returned
      · rename_i handler found
        rcases handler_cases found with ⟨rfl, rfl⟩ | ⟨rfl, rfl⟩ | ⟨rfl, rfl⟩ | ⟨rfl, rfl⟩
        · exact handlePublish_effects json command returned
        · apply Outcome.quiet
          intro effect member
          rcases handleGet_effects returned effect member with ⟨text, rfl⟩
          trivial
        · exact handleSet_effects json command returned
        · exact handleIncr_effects json command returned

end Effects

/-! ## The invariant -/

section Invariant

variable {ι : Type} (gui : WebGui) (sub : ι → Subscriber Unit)

/-- What the request in progress has still to do. -/
inductive Unfinished (system : RunSystem ι) : Prop
  | quiet (all : ∀ effect ∈ system.todo, Quiet gui (gui.currentRunNumber system.db) effect)
  | copies (number : Text) (rest : List Effect)
      (todo : system.todo = .set (gui.runInfoKey latestRunNumber) number :: rest)
      (current : gui.currentRunNumber system.db = some number)
      (all : ∀ effect ∈ rest, Passes gui effect)
  | copied (number : Text) (current : gui.currentRunNumber system.db = some number)
      (latest : gui.currentLatest system.db = some number)
      (all : ∀ effect ∈ system.todo, Passes gui effect)
  | changes (none : ∀ i sent, ¬ Pending sub system i sent)
      (all : ∀ effect ∈ system.todo, Silent effect)

/-- A `RUN` that a device has still to follow was published with the current run number. -/
structure RunInvariant (system : RunSystem ι) : Prop where
  unfinished : Unfinished gui sub system
  pending : ∀ i sent, Pending sub system i sent →
    ∃ number, gui.currentRunNumber system.db = some number ∧ sent.latest = some number
  running : ∀ i sent, (system.devices i).running = some sent →
    (system.devices i).runNumber = sent.latest

variable {gui} {sub} {system : RunSystem ι}

theorem RunInvariant.agreed (invariant : RunInvariant gui sub system) : Agreed system :=
  ⟨invariant.running, fun i j sent first second =>
    (invariant.running i sent first).trans (invariant.running j sent second).symm⟩

theorem RunInitial.invariant (initial : RunInitial system) : RunInvariant gui sub system where
  unfinished := .quiet (by rw [initial.todo]; exact nofun)
  pending i sent pending := by
    rcases pending with entering | ⟨member, _⟩
    · cases (initial.entering i).symm.trans entering
    · rw [initial.inbox i] at member
      cases member
  running i sent running := by
    cases (initial.running i).symm.trans running

/-! ### Effects -/

/-- A message that no device executes as `RUN`, or one published with the current number,
keeps what is pending. -/
theorem pending_publish {channel text : Text}
    (fits : ∀ i, Starts sub i ⟨channel, text⟩ → ∃ number,
      gui.currentRunNumber system.db = some number ∧ gui.currentLatest system.db = some number)
    (pending : ∀ i sent, Pending sub system i sent →
      ∃ number, gui.currentRunNumber system.db = some number ∧ sent.latest = some number)
    {i : ι} {sent : Sent}
    (isPending : Pending sub (system.apply gui (.publish channel text)) i sent) :
    ∃ number, gui.currentRunNumber system.db = some number ∧ sent.latest = some number := by
  rcases isPending with entering | ⟨member, starts⟩
  · exact pending i sent (Or.inl entering)
  · rcases List.mem_append.mp member with old | new
    · exact pending i sent (Or.inr ⟨old, starts⟩)
    · rw [List.mem_singleton.mp new] at starts ⊢
      exact fits i starts

/-- Setting another key, or the number that is there, keeps the run number. -/
theorem currentRunNumber_set {db : Db} {key text : Text}
    (quiet : key = gui.runInfoKey runNumber → gui.currentRunNumber db = some text) :
    gui.currentRunNumber (Store.set db key text) = gui.currentRunNumber db := by
  by_cases same : key = gui.runInfoKey runNumber
  · rw [quiet same, WebGui.currentRunNumber, same, get_set]
  · exact get_congr (lookup_set_of_ne _ (Ne.symm same) _)

/-- Incrementing another key keeps the run number. -/
theorem currentRunNumber_increment {db : Db} {key : Text}
    (other : key ≠ gui.runInfoKey runNumber) :
    gui.currentRunNumber (increment db key) = gui.currentRunNumber db := by
  apply get_congr
  rw [increment]
  split
  · exact lookup_set_of_ne _ (Ne.symm other) _
  · split
    · rfl
    · exact lookup_set_of_ne _ (Ne.symm other) _
  · rfl

/-- The effects of a request keep the invariant. -/
theorem RunInvariant.apply (readsBack : ReadsBack gui sub) {effect : Effect} {rest : List Effect}
    (invariant : RunInvariant gui sub system) (todo : system.todo = effect :: rest) :
    RunInvariant gui sub { system.apply gui effect with todo := rest } := by
  have pending := invariant.pending
  have running := invariant.running
  cases invariant.unfinished with
  | quiet all =>
      rw [todo] at all
      have first := all effect List.mem_cons_self
      have others : ∀ other ∈ rest, Quiet gui (gui.currentRunNumber system.db) other :=
        fun other member => all other (List.mem_cons_of_mem _ member)
      cases effect with
      | set key text =>
          have same : gui.currentRunNumber (Store.set system.db key text) =
              gui.currentRunNumber system.db := currentRunNumber_set first
          rw [← same] at others pending
          exact ⟨.quiet others, pending, running⟩
      | incr key =>
          have same : gui.currentRunNumber (increment system.db key) =
              gui.currentRunNumber system.db := currentRunNumber_increment first
          rw [← same] at others pending
          exact ⟨.quiet others, pending, running⟩
      | publish channel text =>
          rcases first with ⟨services, instances, cmd, known, notRun, rfl⟩
          refine ⟨.quiet others, fun i sent isPending => pending_publish ?_ pending isPending,
            running⟩
          intro i starts
          exact absurd (readsBack i services instances cmd known channel _ starts).symm notRun
      | send text => exact ⟨.quiet others, pending, running⟩
  | copies number more isTodo current all =>
      rw [todo, List.cons.injEq] at isTodo
      rcases isTodo with ⟨rfl, rfl⟩
      have same : gui.currentRunNumber
          (Store.set system.db (gui.runInfoKey latestRunNumber) number) =
            gui.currentRunNumber system.db := by
        apply currentRunNumber_set
        intro equal
        exact absurd (runInfoKey_inj.mp equal) (by decide)
      have latest : gui.currentLatest
          (Store.set system.db (gui.runInfoKey latestRunNumber) number) = some number := by
        rw [WebGui.currentLatest, get_set]
      refine ⟨.copied number (same.trans current) latest all, ?_, running⟩
      rw [← same] at pending
      exact pending
  | copied number current latest all =>
      rw [todo] at all
      have first := all effect List.mem_cons_self
      have others : ∀ other ∈ rest, Passes gui other :=
        fun other member => all other (List.mem_cons_of_mem _ member)
      cases effect with
      | set key text => exact first.elim
      | incr key => exact first.elim
      | publish channel text =>
          exact ⟨.copied number current latest others,
            fun i sent isPending =>
              pending_publish (fun _ _ => ⟨number, current, latest⟩) pending isPending, running⟩
      | send text => exact ⟨.copied number current latest others, pending, running⟩
  | changes none all =>
      rw [todo] at all
      have first := all effect List.mem_cons_self
      have others : ∀ other ∈ rest, Silent other :=
        fun other member => all other (List.mem_cons_of_mem _ member)
      cases effect with
      | publish channel text => exact first.elim
      | set key text =>
          exact ⟨.changes none others, fun i sent isPending => absurd isPending (none i sent),
            running⟩
      | incr key =>
          exact ⟨.changes none others, fun i sent isPending => absurd isPending (none i sent),
            running⟩
      | send text =>
          exact ⟨.changes none others, fun i sent isPending => absurd isPending (none i sent),
            running⟩

/-! ### Devices -/

variable [DecidableEq ι]

@[simp]
theorem setDevice_self (i : ι) (device : RunDevice) :
    (system.setDevice i device).devices i = device := by
  simp [RunSystem.setDevice]

theorem setDevice_of_ne {i j : ι} (device : RunDevice) (differs : j ≠ i) :
    (system.setDevice i device).devices j = system.devices j := by
  simp [RunSystem.setDevice, differs]

/-- A device that has no new `RUN` to follow keeps the invariant. -/
theorem RunInvariant.setDevice (invariant : RunInvariant gui sub system) {i : ι}
    {device : RunDevice}
    (fewer : ∀ sent, (device.entering = some sent ∨
      sent ∈ device.inbox ∧ Starts sub i sent.message) → Pending sub system i sent)
    (agrees : ∀ sent, device.running = some sent → device.runNumber = sent.latest) :
    RunInvariant gui sub (system.setDevice i device) := by
  have shrinks (j : ι) (sent : Sent) (isPending : Pending sub (system.setDevice i device) j sent) :
      Pending sub system j sent := by
    by_cases same : j = i
    · subst same
      rw [Pending, setDevice_self] at isPending
      exact fewer sent isPending
    · rwa [Pending, setDevice_of_ne _ same] at isPending
  refine ⟨?_, fun j sent isPending => invariant.pending j sent (shrinks j sent isPending), ?_⟩
  · cases invariant.unfinished with
    | quiet all => exact .quiet all
    | copies number rest todo current all => exact .copies number rest todo current all
    | copied number current latest all => exact .copied number current latest all
    | changes none all =>
        exact .changes (fun j sent isPending => none j sent (shrinks j sent isPending)) all
  · intro j sent isRunning
    by_cases same : j = i
    · subst same
      rw [setDevice_self] at isRunning ⊢
      exact agrees sent isRunning
    · rw [setDevice_of_ne _ same] at isRunning ⊢
      exact invariant.running j sent isRunning

/-- Every step that keeps the run number keeps the invariant. -/
theorem RunInvariant.step (readsBack : ReadsBack gui sub) {action : RunAction ι}
    {next : RunSystem ι} (invariant : RunInvariant gui sub system)
    (keeps : KeepsRunNumber gui sub system action)
    (stepped : runNumberStep gui sub system action = some next) : RunInvariant gui sub next := by
  cases action with
  | request text polls connected fuel =>
      simp only [runNumberStep] at stepped
      split at stepped
      · split at stepped
        · rename_i effects returned
          cases stepped
          refine ⟨?_, invariant.pending, invariant.running⟩
          cases processData_effects returned with
          | quiet _ all => exact .quiet all
          | copies number rest current all => exact .copies number rest rfl current all
          | uncopied _ publishes absent => exact absurd absent (keeps.2 publishes)
          | changes _ changed all => exact .changes (keeps.1 changed) all
        · cases stepped
      · cases stepped
  | effect =>
      simp only [runNumberStep] at stepped
      split at stepped
      · cases stepped
      · rename_i effect rest todo
        cases stepped
        exact invariant.apply readsBack todo
  | receive i starts =>
      simp only [runNumberStep] at stepped
      split at stepped
      · cases stepped
      · rename_i sent rest inbox
        have first : sent ∈ (system.devices i).inbox := by
          rw [inbox]
          exact List.mem_cons_self
        have later (other : Sent) (member : other ∈ rest) :
            other ∈ (system.devices i).inbox := by
          rw [inbox]
          exact List.mem_cons_of_mem _ member
        split at stepped
        · split at stepped
          · rename_i runs
            cases stepped
            apply invariant.setDevice
            · rintro other (entering | ⟨member, otherRuns⟩)
              · cases entering
                exact Or.inr ⟨first, runs.1⟩
              · exact Or.inr ⟨later other member, otherRuns⟩
            · exact invariant.running i
          · cases stepped
        · cases stepped
          apply invariant.setDevice
          · rintro other (entering | ⟨member, otherRuns⟩)
            · exact Or.inl entering
            · exact Or.inr ⟨later other member, otherRuns⟩
          · exact invariant.running i
  | enterRunning i =>
      simp only [runNumberStep] at stepped
      split at stepped
      · cases stepped
      · rename_i sent entering
        cases stepped
        apply invariant.setDevice
        · rintro other (again | waiting)
          · cases again
          · exact Or.inr waiting
        · intro other same
          cases same
          rcases invariant.pending i sent (Or.inl entering) with ⟨number, current, latest⟩
          rw [latest, RunDevice.readRunNumber, current, Option.some_or]
  | changeState i =>
      simp only [runNumberStep] at stepped
      cases stepped
      apply invariant.setDevice
      · rintro other (entering | waiting)
        · exact Or.inl entering
        · exact Or.inr waiting
      · intro other running
        cases running

/-- In every run in which the run number is changed only while no device has still to read
it, the devices that run because of one `RUN` have the number copied for it. -/
theorem always_agreed (readsBack : ReadsBack gui sub) (initial : RunInitial system)
    (actions : List (RunAction ι))
    (keeps : Meets (runNumberStep gui sub) (KeepsRunNumber gui sub) system actions) :
    Always (runNumberStep gui sub) Agreed system actions :=
  always_of_invariant
    (fun invariant keeps stepped => RunInvariant.step readsBack invariant keeps stepped)
    RunInvariant.agreed initial.invariant keeps

end Invariant

/-- The messages of the clients, and the message with a command for all instances. -/
def runText : Text := "run".toList
def setText : Text := "set".toList

def commandForAll (cmd : Text) : PTree :=
  .node [] [(commandField, .leaf changeState), (valueField, .leaf cmd),
    (servicesField, .array [everyone]), (instancesField, .array [everyone])]

/-- A reader of these messages. -/
def readRunText : JsonReader := fun text =>
  if text = runText then
    some (.node [] [(commandField, .leaf redisPublish), (valueField, .leaf FairmqCommand.run),
      (servicesField, .array [everyone]), (instancesField, .array [everyone])])
  else if text = setText then
    some (.node [] [(commandField, .leaf redisSet), (nameField, .leaf runNumber),
      (valueField, .leaf "2".toList)])
  else some (commandForAll text)

/-- A controller whose messages are their commands. -/
def runGui : WebGui where
  fSeparator := Registry.colon
  fChannelName := commandChannelName
  readJson := readRunText
  writeJson tree := (tree.getOptional valueField).getD []

/-- Two instances of a service. -/
def runSub (second : Bool) : Subscriber Unit where
  fServiceName := "Sampler".toList
  fId := (if second then "Sampler-1" else "Sampler-0").toList
  fSeparator := Registry.colon
  readJson := readRunText
  changeDeviceState plugin _ := plugin

def idleDevice : RunDevice :=
  ⟨[], none, none, none⟩

/-- The first run number is in the registry. -/
def runStart : RunSystem Bool where
  db := Store.set ∅ (runGui.runInfoKey runNumber) "1".toList
  todo := []
  devices _ := idleDevice

theorem runStart_initial : RunInitial runStart :=
  ⟨rfl, fun _ => rfl, fun _ => rfl, fun _ => rfl⟩

theorem runGui_readsBack : ReadsBack runGui runSub := by
  intro i services instances cmd known channel value selected
  have plain : ∀ cmd ∈ knownCommandList,
      cmd.takeWhile (· ≠ '\x00') = cmd ∧ cmd ≠ runText ∧ cmd ≠ setText := by
    decide
  have read : toJson (runSub i).readJson (runGui.toMessage services instances cmd) =
      some (commandForAll cmd) := by
    rcases plain cmd known with ⟨whole, notRun, notSet⟩
    have text : runGui.toMessage services instances cmd = cmd := rfl
    rw [text, toJson, whole]
    simp [runSub, readRunText, notRun, notSet]
  simp only [Subscriber.selected, read, Option.bind_eq_bind, Option.bind_some,
    Option.bind_eq_some_iff] at selected
  rcases selected with ⟨_, _, _, _, _, _, _, _, found, isFound, _, _, equal⟩
  cases equal
  exact (Option.some.inj isFound).symm

/-- One device reads the number before another client sets it, and one after. -/
def lateActions : List (RunAction Bool) :=
  [.request runText (fun _ => ∅) true 0, .effect, .effect, .effect, .receive false true,
    .enterRunning false, .receive true true, .request setText (fun _ => ∅) true 0, .effect,
    .enterRunning true]

/-- The second device runs with the number of the next run. -/
theorem not_agreed_of_late :
    ¬ ∀ (gui : WebGui) (sub : Bool → Subscriber Unit) (system : RunSystem Bool)
      (actions : List (RunAction Bool)), ReadsBack gui sub → RunInitial system →
      Always (runNumberStep gui sub) Agreed system actions := by
  intro agreed
  have always := agreed runGui runSub runStart lateActions runGui_readsBack runStart_initial
  have last := (always_iff_forall_reached _ _ _ _).mp always lateActions List.prefix_rfl _ rfl
  have differs := last.2 false true _ rfl rfl
  exact absurd differs (by decide)

/-- The devices agree when nobody sets the number. -/
theorem agreed_of_early :
    Always (runNumberStep runGui runSub) Agreed runStart
      [.request runText (fun _ => ∅) true 0, .effect, .effect, .effect, .receive false true,
        .receive true true, .enterRunning false, .enterRunning true] := by
  apply always_agreed runGui_readsBack runStart_initial
  refine ⟨⟨?_, ?_⟩, fun next _ => meets_of_forall_mem ?_ next⟩
  · rintro _ i sent (entering | ⟨member, _⟩)
    · cases entering
    · cases member
  · rintro _ absent
    cases absent
  · intro state action member
    simp only [List.mem_cons, List.not_mem_nil, or_false] at member
    rcases member with rfl | rfl | rfl | rfl | rfl | rfl | rfl <;> trivial

end NestDaq.Controller
