import Mathlib.Data.Option.Basic
import NestDaq.Message.Tree
import NestDaq.Plugin.Cancel
import NestDaq.Registry.Keys

/-!
# Commands received by the plugin

The callback of `SubscribeToDaqCommand` and the loop that consumes the messages
of the command channel. A message that the callback rejects is logged and the
loop goes on; an exception leaves the loop, and the plugin shuts down. The callback
executes a command itself, and no message is consumed until the command returns.
-/

namespace NestDaq.Plugin

open NestDaq.Message
open NestDaq.Registry
open NestDaq.Transition

/-- `CommandChannelName`. -/
def commandChannelName : Text := "daqctl".toList

/-- The members of the plugin that the callback reads, the JSON reader, and what
`ChangeDeviceStateByMultiCommand` does to the rest of the plugin; it has no result when it
does not return. -/
structure Subscriber (σ : Type) where
  fServiceName : Text
  fId : Text
  fSeparator : Text
  readJson : JsonReader
  changeDeviceState : σ → Text → Option σ

/-- The state of the plugin and the flag that ends its loop. -/
structure Subscribed (σ : Type) where
  plugin : σ
  fPluginShutdownRequested : Bool
  deriving DecidableEq

structure Published where
  channel : Text
  text : Text
  deriving DecidableEq

variable {σ : Type}

/-- How the callback of `on_message` ends. -/
inductive Outcome (σ : Type)
  | returned (state : Subscribed σ)
  | thrown
  /-- It does not end: the command that it executes does not return. -/
  | executing

/-- The callback returns when the command has returned. -/
def Outcome.ofCommand : Option (Subscribed σ) → Outcome σ
  | none => .executing
  | some next => .returned next

namespace Subscriber

variable (sub : Subscriber σ)

def longInstanceId : Text :=
  Text.join [sub.fServiceName, sub.fId] sub.fSeparator

/-- The services and instances of a message include this instance. -/
def Addressed (services instances : List Text) : Prop :=
  everyone ∈ services ∨
    sub.fServiceName ∈ services ∧ (everyone ∈ instances ∨ sub.longInstanceId ∈ instances)

instance (services instances : List Text) : Decidable (sub.Addressed services instances) :=
  inferInstanceAs (Decidable (_ ∨ _))

/-- Execute a command that addresses this instance. -/
def execute (state : Subscribed σ) (value : Text) : Option (Subscribed σ) :=
  (sub.changeDeviceState state.plugin value).map fun plugin =>
    { plugin := plugin
      fPluginShutdownRequested := state.fPluginShutdownRequested || EndsPlugin value }

/-- The callback of `on_message`. -/
def onMessage (state : Subscribed σ) (message : Published) : Outcome σ :=
  if message.channel ≠ commandChannelName then .returned state
  else
    match toJson sub.readJson message.text with
    | none => .thrown
    | some obj =>
        match obj.getOptional commandField with
        | none => .returned state
        | some cmd =>
            if cmd = changeState then
              match obj.getChild servicesField, obj.getChild instancesField with
              | some services, some instances =>
                  match obj.getOptional valueField with
                  | none => .returned state
                  | some value =>
                      if services.values = [] then .returned state
                      else if instances.values = [] then .returned state
                      else if sub.Addressed services.values instances.values then
                        .ofCommand (sub.execute state value)
                      else .returned state
              | _, _ => .thrown
            else .returned state

/-- What a sequence of messages leaves the loop in. -/
inductive Loop (σ : Type)
  /-- It waits for the next message. -/
  | consuming (state : Subscribed σ)
  /-- The flag has ended it. -/
  | ended (state : Subscribed σ)
  /-- An exception has ended it. -/
  | broken (state : Subscribed σ)
  /-- It is in a command that does not return. -/
  | executing (state : Subscribed σ)

/-- The loop around `consume`. -/
def subscribeToDaqCommand (state : Subscribed σ) : List Published → Loop σ
  | [] => if state.fPluginShutdownRequested then .ended state else .consuming state
  | message :: rest =>
      if state.fPluginShutdownRequested then .ended state
      else
        match sub.onMessage state message with
        | .returned next => subscribeToDaqCommand next rest
        | .thrown => .broken state
        | .executing => .executing state

/-- The command of a `change_state` message that addresses this instance. -/
def selected (message : Published) : Option Text := do
  guard (message.channel = commandChannelName)
  let obj ← toJson sub.readJson message.text
  guard (obj.getOptional commandField = some changeState)
  let services ← obj.getChild servicesField
  let instances ← obj.getChild instancesField
  let value ← obj.getOptional valueField
  guard (services.values ≠ [] ∧ instances.values ≠ [] ∧
    sub.Addressed services.values instances.values)
  return value

/-- The message is malformed, or a `change_state` without services or instances. -/
def Throws (message : Published) : Prop :=
  message.channel = commandChannelName ∧
    match toJson sub.readJson message.text with
    | none => True
    | some obj =>
        obj.getOptional commandField = some changeState ∧
          (obj.getChild servicesField = none ∨ obj.getChild instancesField = none)

/-- The message tells this instance to stop. -/
def StopsPlugin (message : Published) : Prop :=
  ∃ value, sub.selected message = some value ∧ EndsPlugin value

/-- A message that does not address this instance changes nothing; the command of one that
does is executed, if it returns. -/
def serve (state : Subscribed σ) (message : Published) : Option (Subscribed σ) :=
  match sub.selected message with
  | none => some state
  | some value => sub.execute state value

/-- The loop that executes every selected command until one of them stops it, if all of them
return. -/
def serveAll (state : Subscribed σ) : List Published → Option (Loop σ)
  | [] => some (if state.fPluginShutdownRequested then .ended state else .consuming state)
  | message :: rest =>
      if state.fPluginShutdownRequested then some (.ended state)
      else (sub.serve state message).bind fun next => serveAll next rest

/-- The command of the message, if it addresses this instance, returns in the state in which
the messages before it leave the plugin. -/
def Returns (state : Subscribed σ) (before : List Published) (message : Published) : Prop :=
  ∀ reached, before.foldlM sub.serve state = some reached → (sub.serve reached message).isSome

/-- The callback throws exactly at the messages of `Throws` and serves all others. -/
theorem onMessage_eq (state : Subscribed σ) (message : Published) :
    (sub.Throws message → sub.onMessage state message = .thrown) ∧
      (¬ sub.Throws message →
        sub.onMessage state message = .ofCommand (sub.serve state message)) := by
  unfold onMessage Throws serve selected
  by_cases ours : message.channel = commandChannelName
  · cases read : toJson sub.readJson message.text with
    | none => simp [ours]
    | some obj =>
        cases command : obj.getOptional commandField with
        | none => simp [ours, command, Outcome.ofCommand]
        | some cmd =>
            by_cases changes : cmd = changeState
            · cases hasServices : obj.getChild servicesField with
              | none => simp [ours, command, changes, hasServices]
              | some services =>
                  cases hasInstances : obj.getChild instancesField with
                  | none => simp [ours, command, changes, hasServices, hasInstances]
                  | some instances =>
                      cases hasValue : obj.getOptional valueField with
                      | none =>
                          simp [ours, command, changes, hasServices, hasInstances, hasValue,
                            Outcome.ofCommand]
                      | some value =>
                          by_cases someServices : services.values = []
                          · simp [ours, command, changes, hasServices, hasInstances, hasValue,
                              someServices, Outcome.ofCommand]
                          · by_cases someInstances : instances.values = []
                            · simp [ours, command, changes, hasServices, hasInstances, hasValue,
                                someInstances, Outcome.ofCommand]
                            · by_cases addressed : sub.Addressed services.values instances.values
                              · simp [ours, command, changes, hasServices, hasInstances, hasValue,
                                  someServices, someInstances, addressed]
                              · simp [ours, command, changes, hasServices, hasInstances, hasValue,
                                  someServices, someInstances, addressed, Outcome.ofCommand]
            · simp [ours, command, changes, Outcome.ofCommand]
  · simp [ours, Outcome.ofCommand]

/-! ## Runs of the loop -/

variable {state next : Subscribed σ} {message : Published}

/-- A served message sets the flag when it tells the instance to stop, and only then. -/
theorem serve_shutdown (running : state.fPluginShutdownRequested = false)
    (served : sub.serve state message = some next) :
    next.fPluginShutdownRequested = true ↔ sub.StopsPlugin message := by
  unfold serve at served
  unfold StopsPlugin
  cases isSelected : sub.selected message with
  | none =>
      rw [isSelected] at served
      cases served
      simp [running]
  | some value =>
      rw [isSelected] at served
      rcases Option.map_eq_some_iff.mp served with ⟨plugin, -, rfl⟩
      simp [running]

/-- A stopped loop leaves the later messages. -/
theorem loops_of_shutdown (stopped : state.fPluginShutdownRequested = true)
    (messages : List Published) :
    sub.subscribeToDaqCommand state messages = .ended state ∧
      sub.serveAll state messages = some (.ended state) := by
  cases messages <;> simp [subscribeToDaqCommand, serveAll, stopped]

/-- The loop that executes all commands is never broken, nor in a command. -/
theorem serveAll_cases {messages : List Published} {loop : Loop σ}
    (served : sub.serveAll state messages = some loop) :
    ∃ last, loop = .consuming last ∨ loop = .ended last := by
  induction messages generalizing state with
  | nil =>
      cases served
      apply Exists.intro state
      split
      · exact Or.inr rfl
      · exact Or.inl rfl
  | cons message rest ih =>
      rw [serveAll] at served
      split at served
      · cases served
        exact ⟨state, Or.inr rfl⟩
      · rcases Option.bind_eq_some_iff.mp served with ⟨next, -, later⟩
        exact ih later

/-- The condition for the messages behind the first one. -/
theorem returns_cons (served : sub.serve state message = some next) (before : List Published)
    (other : Published) :
    sub.Returns state (message :: before) other ↔ sub.Returns next before other := by
  rw [Returns, Returns, List.foldlM_cons, Option.bind_eq_bind, served, Option.bind_some]

/-- Published messages cannot stop a device unless they tell it to, exactly when
no message that reaches the callback makes it throw and every command that is executed
returns. -/
theorem subscribeToDaqCommand_serves_iff (running : state.fPluginShutdownRequested = false)
    (messages : List Published) :
    sub.serveAll state messages = some (sub.subscribeToDaqCommand state messages) ↔
      ∀ before message later, messages = before ++ message :: later →
        (∀ earlier ∈ before, ¬ sub.StopsPlugin earlier) →
          ¬ sub.Throws message ∧ sub.Returns state before message := by
  induction messages generalizing state with
  | nil => simp [subscribeToDaqCommand, serveAll]
  | cons message rest ih =>
      -- the first message throws, does not return, or is served
      by_cases throws : sub.Throws message
      · have thrown := (sub.onMessage_eq state message).1 throws
        apply iff_of_false
        · intro equal
          rcases sub.serveAll_cases equal with ⟨last, isLast⟩
          simp [subscribeToDaqCommand, running, thrown] at isLast
        · intro reached
          exact (reached [] message rest rfl nofun).1 throws
      · have isServed := (sub.onMessage_eq state message).2 throws
        cases served : sub.serve state message with
        | none =>
            rw [served] at isServed
            apply iff_of_false
            · intro equal
              simp [serveAll, running, served] at equal
            · intro reached
              have returns := (reached [] message rest rfl nofun).2 state rfl
              rw [served] at returns
              cases returns
        | some next =>
            rw [served] at isServed
            have first : sub.subscribeToDaqCommand state (message :: rest) =
                sub.subscribeToDaqCommand next rest := by
              simp [subscribeToDaqCommand, running, isServed, Outcome.ofCommand]
            have expected : sub.serveAll state (message :: rest) = sub.serveAll next rest := by
              simp [serveAll, running, served]
            have here : ¬ sub.Throws message ∧ sub.Returns state [] message := by
              refine ⟨throws, fun reached isReached => ?_⟩
              cases isReached
              rw [served]
              rfl
            rw [first, expected]
            by_cases stops : sub.StopsPlugin message
            · have isSet := (sub.serve_shutdown running served).mpr stops
              have ends := sub.loops_of_shutdown isSet rest
              rw [ends.1, ends.2]
              apply iff_of_true rfl
              intro before other later split goesOn
              cases before with
              | nil =>
                  rw [List.nil_append, List.cons.injEq] at split
                  exact split.1 ▸ here
              | cons head before =>
                  rw [List.cons_append, List.cons.injEq] at split
                  exact absurd (split.1 ▸ stops) (goesOn head List.mem_cons_self)
            · have still : next.fPluginShutdownRequested = false := by
                rw [Bool.eq_false_iff]
                exact fun isSet => stops ((sub.serve_shutdown running served).mp isSet)
              rw [ih still]
              constructor
              · intro reached before other later split goesOn
                cases before with
                | nil =>
                    rw [List.nil_append, List.cons.injEq] at split
                    exact split.1 ▸ here
                | cons head before =>
                    rw [List.cons_append, List.cons.injEq] at split
                    rcases split with ⟨rfl, split⟩
                    rw [sub.returns_cons served]
                    exact reached before other later split fun earlier member =>
                      goesOn earlier (List.mem_cons_of_mem _ member)
              · intro reached before other later split goesOn
                rw [← sub.returns_cons served]
                apply reached (message :: before) other later (by rw [split, List.cons_append])
                intro earlier member
                rcases List.mem_cons.mp member with rfl | inside
                · exact stops
                · exact goesOn earlier inside

end Subscriber

/-- `ChangeDeviceStateByMultiCommand` of a plugin whose threads take the given steps during
one command after the other. It returns when the steps lead there. -/
def changeDeviceState :
    PluginState × List (List PluginAction) → Text → Option (PluginState × List (List PluginAction))
  | (_, []), _ => none
  | (plugin, steps :: later), value =>
      (run pluginStep plugin (.session (.command value) :: steps ++ [.returned])).map
        fun next => (next, later)

/-- A `change_state` with the command and the value alone. -/
def unaddressed : Text × PTree :=
  ("\x7b\"command\":\"change_state\",\"value\":\"RUN\"\x7d".toList,
    .node [] [(commandField, .leaf changeState), (valueField, .leaf FairmqCommand.run)])

/-- The same command with services and instances. -/
def addressed : Text × PTree :=
  (("\x7b\"command\":\"change_state\",\"value\":\"RUN\"," ++
      "\"services\":[\"all\"],\"instances\":[\"all\"]\x7d").toList,
    .node []
      [(commandField, .leaf changeState), (valueField, .leaf FairmqCommand.run),
        (servicesField, .array [everyone]), (instancesField, .array [everyone])])

/-- An instance with a reader of the two messages; other text is malformed. -/
def sampler : Subscriber (PluginState × List (List PluginAction)) where
  fServiceName := "Sampler".toList
  fId := "Sampler-0".toList
  fSeparator := colon
  readJson text :=
    if text = unaddressed.1 then some unaddressed.2
    else if text = addressed.1 then some addressed.2
    else none
  changeDeviceState := changeDeviceState

/-- A plugin at rest in a state. -/
def restingPlugin (state : DeviceState) (requests runRequest : Nat) : PluginState where
  session := ⟨.commands [], ⟨state, [], [], requests, runRequest⟩, false⟩
  callback := none
  executing := none
  fPluginShutdownRequested := false

/-- It is ready, and takes the steps of `RUN`. -/
def listening : Subscribed (PluginState × List (List PluginAction)) :=
  ⟨(restingPlugin .ready 0 0, [[.session .readState, .session .request, .session (.device .push),
    .session .waitForNext]]), false⟩

/-- It runs. -/
def executed : Subscribed (PluginState × List (List PluginAction)) :=
  ⟨(restingPlugin .running 1 1, []), false⟩

/-- A `change_state` without services ends the loop of every plugin that
receives it, and the next command is not executed, though it would return. -/
theorem subscribeToDaqCommand_broken :
    ¬ ∀ (σ : Type) (sub : Subscriber σ) (state : Subscribed σ) (messages : List Published),
      state.fPluginShutdownRequested = false → (sub.serveAll state messages).isSome →
        sub.serveAll state messages = some (sub.subscribeToDaqCommand state messages) := by
  intro serves
  have right : sampler.serveAll listening
      [⟨commandChannelName, unaddressed.1⟩, ⟨commandChannelName, addressed.1⟩] =
      some (.consuming executed) := by
    rfl
  have left : sampler.subscribeToDaqCommand listening
      [⟨commandChannelName, unaddressed.1⟩, ⟨commandChannelName, addressed.1⟩] =
      .broken listening := by
    rfl
  have equal := serves _ sampler listening
    [⟨commandChannelName, unaddressed.1⟩, ⟨commandChannelName, addressed.1⟩] rfl
    (by rw [right]; rfl)
  rw [left, right] at equal
  cases equal

/-- A command with services and instances is executed and the loop goes on. -/
theorem subscribeToDaqCommand_serves_addressed :
    sampler.serveAll listening [⟨commandChannelName, addressed.1⟩] =
        some (sampler.subscribeToDaqCommand listening [⟨commandChannelName, addressed.1⟩]) ∧
      sampler.subscribeToDaqCommand listening [⟨commandChannelName, addressed.1⟩] =
        .consuming executed := by
  refine ⟨(sampler.subscribeToDaqCommand_serves_iff rfl _).mpr ?_, rfl⟩
  intro before message later split _
  have parts : before = [] ∧ message = ⟨commandChannelName, addressed.1⟩ := by
    cases before with
    | nil =>
        rw [List.nil_append, List.cons.injEq] at split
        exact ⟨rfl, split.1.symm⟩
    | cons head before => simp at split
  rcases parts with ⟨rfl, rfl⟩
  constructor
  · rintro ⟨_, _, services | instances⟩
    · nomatch services
    · nomatch instances
  · intro reached isReached
    cases isReached
    rfl

end NestDaq.Plugin
