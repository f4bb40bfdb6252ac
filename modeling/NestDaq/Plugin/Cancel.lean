import NestDaq.Plugin.Waiting

/-!
# Cancelling the wait for peers

The callback of `Bound` runs on the device thread. It pushes `Bound` first and
then waits for the peers in three loops that `IsCanceled` ends. Both flags of
`IsCanceled` are set by the control thread only, so the loops can be cancelled
as long as that thread is not itself in a wait loop. It is, whenever it has
requested `Connect` before the callback is over.
-/

namespace NestDaq.Plugin

open NestDaq.Transition

/-- Where the device thread is in the `Bound` case of `OnDeviceStateChange`. -/
inductive BoundCallback
  | writeBindAddress
  | waitBindAddress
  /-- `ConfigConnect` or `ResolveConnectAddress`, outside `ReadPeerAddress`. -/
  | resolveConnectAddress
  | readPeerAddress
  | writeConnectAddress
  | waitForPeerConnection
  deriving DecidableEq, Repr

namespace BoundCallback

/-- The wait loops that `IsCanceled` ends. -/
def InLoop : BoundCallback → Prop
  | waitBindAddress | readPeerAddress | waitForPeerConnection => True
  | _ => False

instance : DecidablePred InLoop
  | waitBindAddress => .isTrue True.intro
  | readPeerAddress => .isTrue True.intro
  | waitForPeerConnection => .isTrue True.intro
  | writeBindAddress => .isFalse id
  | resolveConnectAddress => .isFalse id
  | writeConnectAddress => .isFalse id

/-- The next place in the callback; `none` is its end. `peersReady` is what the
loops and the resolution find out about the peers. -/
def next (canceled peersReady : Bool) : BoundCallback → Option BoundCallback
  | writeBindAddress => if canceled then none else some waitBindAddress
  | waitBindAddress =>
      if canceled then none
      else if peersReady then some resolveConnectAddress
      else some waitBindAddress
  | resolveConnectAddress =>
      if peersReady then if canceled then none else some writeConnectAddress
      else some readPeerAddress
  | readPeerAddress =>
      if peersReady || canceled then some resolveConnectAddress else some readPeerAddress
  | writeConnectAddress => if canceled then none else some waitForPeerConnection
  | waitForPeerConnection =>
      if peersReady || canceled then none else some waitForPeerConnection

end BoundCallback

/-! ## The plugin -/

/-- `RunStartupSequence`. -/
def runStartupSequence (fStartupState : Text) : List Text :=
  let s := Text.toLower fStartupState
  if s = "idle".toList then []
  else if s = "initialingdevice".toList ∨ s = "initializing-device".toList then
    [FairmqCommand.initDevice]
  else if s = "initialized".toList then [FairmqCommand.initDevice, FairmqCommand.completeInit]
  else if s = "bound".toList then
    [FairmqCommand.initDevice, FairmqCommand.completeInit, FairmqCommand.bind]
  else if s = "deviceready".toList ∨ s = "device-ready".toList then
    [FairmqCommand.initDevice, FairmqCommand.completeInit, FairmqCommand.bind,
      FairmqCommand.connect]
  else if s = "ready".toList then
    [FairmqCommand.initDevice, FairmqCommand.completeInit, FairmqCommand.bind,
      FairmqCommand.connect, FairmqCommand.initTask]
  else
    [FairmqCommand.initDevice, FairmqCommand.completeInit, FairmqCommand.bind,
      FairmqCommand.connect, FairmqCommand.initTask, FairmqCommand.run]

/-- The command is one after which the plugin shuts down. -/
def EndsPlugin (cmd : Text) : Prop :=
  cmd = DaqCommand.exit ∨ cmd = DaqCommand.quit ∨ cmd = FairmqCommand.end

instance (cmd : Text) : Decidable (EndsPlugin cmd) :=
  inferInstanceAs (Decidable (_ ∨ _ ∨ _))

/-- The session with the callback of `Bound`, the message being processed and
the second flag. -/
structure PluginState where
  session : Session
  callback : Option BoundCallback
  executing : Option Text
  fPluginShutdownRequested : Bool
  deriving DecidableEq

/-- `IsCanceled`. -/
def PluginState.isCanceled (plugin : PluginState) : Bool :=
  plugin.session.fResetDeviceRequested || plugin.fPluginShutdownRequested

inductive PluginAction
  | session (action : Action)
  /-- `ChangeDeviceStateByMultiCommand` has returned. -/
  | returned
  /-- The callback of `Bound` takes a step. -/
  | callback (peersReady : Bool)
  deriving DecidableEq

/-- A message is taken only between messages, and the device thread does
nothing else while it is in the callback. -/
def Permitted (plugin : PluginState) : Action → Prop
  | .command _ => plugin.executing = none ∧ plugin.fPluginShutdownRequested = false
  | .device _ => plugin.callback = none
  | _ => True

instance (plugin : PluginState) : DecidablePred (Permitted plugin)
  | .command _ => inferInstanceAs (Decidable (_ ∧ _))
  | .device _ => inferInstanceAs (Decidable (_ = _))
  | .readState => .isTrue True.intro
  | .request => .isTrue True.intro
  | .waitForNext => .isTrue True.intro

/-- The step pushes `Bound`, and its callback goes on. -/
def pushesBound (device : Device) : Action → Bool
  | .device .push => device.entered.head? = some .bound
  | _ => false

/-- One step of the control thread, of the device thread or of its callback. -/
def pluginStep : Step PluginState PluginAction
  | plugin, .session action =>
      if Permitted plugin action then
        (step plugin.session action).map fun session =>
          { plugin with
            session
            callback :=
              if pushesBound plugin.session.device action then some .writeBindAddress
              else plugin.callback
            executing :=
              match action with
              | .command cmd => some cmd
              | _ => plugin.executing }
      else none
  | plugin, .returned =>
      match plugin.executing, plugin.session.control with
      | some cmd, .commands [] =>
          some { plugin with
            executing := none
            fPluginShutdownRequested := plugin.fPluginShutdownRequested || EndsPlugin cmd }
      | _, _ => none
  | plugin, .callback peersReady =>
      plugin.callback.map fun callback =>
        { plugin with callback := callback.next plugin.isCanceled peersReady }

/-- The device thread is in one of the loops. -/
def PluginState.InLoop (plugin : PluginState) : Prop :=
  ∃ callback, plugin.callback = some callback ∧ callback.InLoop

/-- The control thread is in `WaitForNext` and the queue is empty. -/
def PluginState.Blocked (plugin : PluginState) : Prop :=
  Waits plugin.session ∧ plugin.session.device.fStateQueue = []

/-- The plugin starts with its startup sequence, at an `Idle` device. -/
structure PluginInitial (plugin : PluginState) : Prop where
  session : Initial plugin.session
  startup : ∃ fStartupState, plugin.session.control = .commands (runStartupSequence fStartupState)
  callback : plugin.callback = none
  executing : plugin.executing = none
  reset : plugin.session.fResetDeviceRequested = false
  shutdown : plugin.fPluginShutdownRequested = false

/-- A `ResetDevice` requested here does not let the callback into a loop again. -/
def BoundCallback.Leaves (callback : BoundCallback) : Prop :=
  callback = .writeBindAddress ∨ callback = .writeConnectAddress

instance : DecidablePred BoundCallback.Leaves :=
  fun _ => inferInstanceAs (Decidable (_ ∨ _))

/-- The transition about to be requested. -/
def Control.requested : Control → Option DeviceStateTransition
  | .requesting transition _ _ => some transition
  | _ => none

/-- No transition is requested during the callback, other than a `ResetDevice`
at a place from which the callback ends without a loop. -/
def RequestsApart (plugin : PluginState) (action : PluginAction) : Prop :=
  action = .session .request → ∀ callback ∈ plugin.callback,
    ∀ transition ∈ plugin.session.control.requested,
      transition = .resetDevice ∧ callback.Leaves

instance (plugin : PluginState) (action : PluginAction) : Decidable (RequestsApart plugin action) :=
  inferInstanceAs (Decidable (_ → _))

/-- `Connect` is not requested during the callback. -/
def ConnectsApart (plugin : PluginState) (action : PluginAction) : Prop :=
  action = .session .request →
    plugin.callback = none ∨ plugin.session.control.requested ≠ some .connect

/-! ## Invariants of the session -/

/-- A `Bound` that is still unread is the last state entered. -/
def BoundLast (device : Device) : Prop :=
  .bound ∈ device.unread →
    device.state = .bound ∧ ∃ before, device.unread = before ++ [.bound] ∧ .bound ∉ before

/-- `fResetDeviceRequested` is set from the decision to request `ResetDevice`
until `Idle` is pushed. -/
def ResetFlag (session : Session) : Prop :=
  match session.control with
  | .commands _ => session.fResetDeviceRequested = false
  | .requesting transition _ _ =>
      session.fResetDeviceRequested = true ↔ transition = .resetDevice
  | .waiting wait _ =>
      session.fResetDeviceRequested = true →
        wait.target = .idle ∧ .idle ∉ session.device.fStateQueue.map Entry.state

variable {session later : Session} {device next : Device}

/-- Nothing is left over in a state other than `Idle` and `Ready`. -/
theorem Leftover.unread_eq_nil_of_ne (leftover : Leftover device) (notIdle : device.state ≠ .idle)
    (notReady : device.state ≠ .ready) : device.unread = [] := by
  rcases leftover with none | ⟨idle | ready, _⟩
  · exact none
  · exact absurd idle notIdle
  · exact absurd ready notReady

/-- At the request of `ResetDevice` nothing is unread. -/
theorem Requesting.unread_of_resetDevice {target : DeviceState}
    (requesting : Requesting device .resetDevice target) :
    device.unread = [] ∧ target = .idle := by
  rcases requesting.allowed with ⟨state, accepted, settled⟩ | overtaken
  · constructor
    · apply requesting.leftover.unread_eq_nil_of_ne
      · intro idle
        rw [idle] at accepted
        cases accepted
      · intro ready
        rw [ready] at accepted
        cases accepted
    · cases start : device.state <;> rw [start] at accepted <;> cases accepted <;>
        exact settled.symm
  · cases overtaken.stop

theorem Leftover.bound_notMem (leftover : Leftover device) : .bound ∉ device.unread := by
  rcases leftover with none | ⟨idle | ready, one⟩
  · simp [none]
  · simp [one, idle]
  · simp [one, ready]

theorem BoundLast.deviceStep {action : DeviceAction} (last : BoundLast device)
    (stepped : deviceStep device action = some next) : BoundLast next := by
  rcases Device.deviceStep_cases stepped with
    ⟨state, steps, rfl⟩ | ⟨running, rfl⟩ | ⟨oldest, rest, oldestFirst, rfl⟩
  · intro member
    have notBefore : .bound ∉ device.unread := by
      intro before
      rw [(last before).1] at steps
      cases steps
    rw [Device.unread_enter, List.mem_append, List.mem_singleton] at member
    rcases member with before | isBound
    · exact absurd before notBefore
    · subst isBound
      exact ⟨rfl, device.unread, Device.unread_enter _ _, notBefore⟩
  · intro member
    rw [Device.unread_enter, List.mem_append, List.mem_singleton] at member
    rcases member with before | isBound
    · cases running.symm.trans (last before).1
    · cases isBound
  · simpa only [BoundLast, Device.unread_push oldestFirst] using last

theorem BoundLast.dropNext {entry : Entry} {rest : List Entry} (last : BoundLast device)
    (queue : device.fStateQueue = entry :: rest) : BoundLast device.dropNext := by
  intro member
  have unread := Device.unread_dropNext queue
  rcases last (unread ▸ List.mem_cons_of_mem _ member) with ⟨isBound, before, split, notBefore⟩
  rw [unread] at split
  refine ⟨isBound, ?_⟩
  cases before with
  | nil =>
      rw [List.nil_append, List.cons.injEq] at split
      rw [split.2] at member
      cases member
  | cons first before =>
      rw [List.cons_append, List.cons.injEq] at split
      exact ⟨before, split.2, fun inside => notBefore (List.mem_cons_of_mem _ inside)⟩

theorem BoundLast.changeDeviceState {transition : DeviceStateTransition}
    (notMem : .bound ∉ device.unread) : BoundLast (device.changeDeviceState transition) := by
  intro member
  cases after : device.state.after transition with
  | none =>
      rw [Device.changeDeviceState_of_refused after] at member
      exact absurd member notMem
  | some state =>
      rw [(Device.changeDeviceState_of_after after).2.1, List.mem_append,
        List.mem_singleton] at member
      rcases member with before | isBound
      · exact absurd before notMem
      · cases start : device.state <;> rw [start] at after <;> cases transition <;>
          cases after <;> cases isBound

/-- When `Bound` is pushed nothing entered later is waiting to be pushed. -/
theorem BoundLast.rest_eq_nil {rest : List DeviceState} (last : BoundLast device)
    (oldestFirst : device.entered = .bound :: rest) : rest = [] ∧ device.state = .bound := by
  have split : device.unread = device.fStateQueue.map Entry.state ++ .bound :: rest := by
    rw [Device.unread, oldestFirst]
  have member : .bound ∈ device.unread := by
    rw [split]
    exact List.mem_append_right _ List.mem_cons_self
  rcases last member with ⟨isBound, before, ends, notBefore⟩
  refine ⟨?_, isBound⟩
  rcases List.eq_nil_or_concat rest with none | ⟨front, final, rfl⟩
  · exact none
  · rw [split, List.concat_eq_append, ← List.cons_append, ← List.append_assoc] at ends
    have same := (List.append_inj' ends rfl).1
    rw [← same] at notBefore
    exact absurd (List.mem_append_right _ List.mem_cons_self) notBefore

/-- In a state at rest a single command does nothing, requests a transition
other than `ResetDevice`, or sets the flag and requests `ResetDevice`. -/
theorem changeDeviceStateBySingleCommand_cases {state : DeviceState}
    (rests : state.automatic = none) (cmd : Text) :
    changeDeviceStateBySingleCommand state cmd = .nothing ∨
      (∃ transition target, transition ≠ .resetDevice ∧
        changeDeviceStateBySingleCommand state cmd = .ask transition target) ∨
      changeDeviceStateBySingleCommand state cmd = .reset := by
  cases state <;> cases rests <;> simp only [changeDeviceStateBySingleCommand] <;> repeat' split
  all_goals first
    | exact Or.inl rfl
    | exact Or.inl True.intro
    | exact Or.inr (Or.inr rfl)
    | (refine Or.inr (Or.inl ⟨_, _, ?_, rfl⟩); decide)

theorem idle_notMem_deviceStep {action : DeviceAction}
    (notIdle : (!pushesIdle device action) = true)
    (notMem : .idle ∉ device.fStateQueue.map Entry.state)
    (stepped : deviceStep device action = some next) :
    .idle ∉ next.fStateQueue.map Entry.state := by
  cases action with
  | automatic =>
      rcases Option.map_eq_some_iff.mp stepped with ⟨state, _, rfl⟩
      exact notMem
  | finish =>
      rcases Option.ite_none_right_eq_some.mp stepped with ⟨_, equal⟩
      cases equal
      exact notMem
  | push =>
      simp only [deviceStep] at stepped
      split at stepped
      · cases stepped
      · rename_i oldest rest oldestFirst
        cases stepped
        have other : oldest ≠ .idle := by
          simpa [pushesIdle, oldestFirst] using notIdle
        rw [List.map_append, List.mem_append, not_or]
        exact ⟨notMem, by simpa using other.symm⟩

theorem ResetFlag.step {action : Action} (flag : ResetFlag session) (invariant : Invariant session)
    (stepped : step session action = some later) : ResetFlag later := by
  cases action with
  | command cmd =>
      simp only [Plugin.step] at stepped
      split at stepped
      · rename_i isControl
        cases stepped
        simpa only [ResetFlag, isControl] using flag
      · cases stepped
  | readState =>
      simp only [Plugin.step] at stepped
      split at stepped
      · rename_i cmd rest isControl
        cases stepped
        simp only [ResetFlag, isControl] at flag
        rcases changeDeviceStateBySingleCommand_cases (invariant.resting isControl).rests cmd with
          isNothing | ⟨transition, target, other, isAsk⟩ | isReset
        · simp [ResetFlag, isNothing, Branch.nothing, flag]
        · simp [ResetFlag, isAsk, Branch.ask, flag, other]
        · simp [ResetFlag, isReset, Branch.reset]
      · cases stepped
  | request =>
      simp only [Plugin.step] at stepped
      split at stepped
      · rename_i transition target rest isControl
        cases stepped
        simp only [ResetFlag, isControl] at flag
        intro isSet
        have isReset := flag.mp isSet
        subst isReset
        have requesting := invariant.requesting isControl
        rcases requesting.unread_of_resetDevice with ⟨none, isIdle⟩
        refine ⟨isIdle, ?_⟩
        rw [Device.fStateQueue_changeDeviceState, Device.fStateQueue_eq_nil none]
        exact List.not_mem_nil
      · cases stepped
  | waitForNext =>
      simp only [Plugin.step] at stepped
      split at stepped
      · rename_i wait rest entry entries isControl queue
        cases stepped
        simp only [ResetFlag, isControl] at flag
        rw [queue] at flag
        by_cases isTarget : entry.state = wait.target
        · simp only [ResetFlag, isTarget, if_true]
          by_contra isSet
          rcases flag (Bool.not_eq_false _ ▸ isSet) with ⟨isIdle, notMem⟩
          apply notMem
          rw [← isIdle, ← isTarget]
          exact List.mem_cons_self
        · simp only [ResetFlag, isTarget, if_false]
          intro isSet
          rcases flag isSet with ⟨isIdle, notMem⟩
          refine ⟨isIdle, fun member => notMem ?_⟩
          have tail : session.device.dropNext.fStateQueue = entries := by
            rw [Device.dropNext, queue, List.tail_cons]
          rw [tail] at member
          exact List.mem_cons_of_mem _ member
      · cases stepped
  | device action =>
      rcases Option.map_eq_some_iff.mp stepped with ⟨next, moved, rfl⟩
      cases isControl : session.control with
      | commands rest =>
          simp only [ResetFlag, isControl] at flag ⊢
          rw [flag, Bool.false_and]
      | requesting transition target rest =>
          simp only [ResetFlag, isControl, Bool.and_eq_true] at flag ⊢
          constructor
          · exact fun isSet => flag.mp isSet.1
          · intro isReset
            refine ⟨flag.mpr isReset, ?_⟩
            subst isReset
            have none := (invariant.requesting isControl).unread_of_resetDevice.1
            have notPushed := (List.append_eq_nil_iff.mp none).2
            simp [pushesIdle, notPushed]
      | waiting wait rest =>
          simp only [ResetFlag, isControl, Bool.and_eq_true] at flag ⊢
          rintro ⟨isSet, notIdle⟩
          rcases flag isSet with ⟨isIdle, notMem⟩
          exact ⟨isIdle, idle_notMem_deviceStep notIdle notMem moved⟩

/-- Along the session the flag and an unread `Bound` keep their meaning. -/
structure SessionInvariant (session : Session) : Prop extends Invariant session where
  flag : ResetFlag session
  last : BoundLast session.device

theorem SessionInvariant.step {action : Action} (invariant : SessionInvariant session)
    (stepped : step session action = some later) : SessionInvariant later := by
  refine ⟨invariant.toInvariant.step stepped, invariant.flag.step invariant.toInvariant stepped, ?_⟩
  have last := invariant.last
  cases action with
  | command cmd =>
      simp only [Plugin.step] at stepped
      split at stepped <;> cases stepped
      exact last
  | readState =>
      simp only [Plugin.step] at stepped
      split at stepped <;> cases stepped
      exact last
  | request =>
      simp only [Plugin.step] at stepped
      split at stepped
      · rename_i isControl
        cases stepped
        exact BoundLast.changeDeviceState (invariant.requesting isControl).leftover.bound_notMem
      · cases stepped
  | waitForNext =>
      simp only [Plugin.step] at stepped
      split at stepped
      · rename_i queue
        cases stepped
        exact last.dropNext queue
      · cases stepped
  | device action =>
      rcases Option.map_eq_some_iff.mp stepped with ⟨next, moved, rfl⟩
      exact last.deviceStep moved

theorem Initial.sessionInvariant (initial : Initial session)
    (reset : session.fResetDeviceRequested = false) : SessionInvariant session := by
  refine ⟨initial.invariant, ?_, ?_⟩
  · rcases initial.control with ⟨rest, isControl⟩
    rw [ResetFlag, isControl]
    exact reset
  · intro member
    rcases initial.queue with none | one
    · rw [none] at member
      cases member
    · rw [one, List.mem_singleton] at member
      cases member

/-! ## Invariants of the plugin -/

variable {plugin after : PluginState}

/-- Every step of the plugin is a step of the session, or leaves it as it is. -/
theorem session_of_pluginStep {action : PluginAction}
    (stepped : pluginStep plugin action = some after) :
    after.session = plugin.session ∨
      ∃ inner, action = .session inner ∧ Permitted plugin inner ∧
        step plugin.session inner = some after.session := by
  cases action with
  | session inner =>
      rcases Option.ite_none_right_eq_some.mp stepped with ⟨permitted, moved⟩
      rcases Option.map_eq_some_iff.mp moved with ⟨session, inside, rfl⟩
      exact Or.inr ⟨inner, rfl, permitted, inside⟩
  | returned =>
      simp only [pluginStep] at stepped
      split at stepped <;> cases stepped
      exact Or.inl rfl
  | callback peersReady =>
      rcases Option.map_eq_some_iff.mp stepped with ⟨callback, _, rfl⟩
      exact Or.inl rfl

theorem SessionInvariant.pluginStep {action : PluginAction}
    (invariant : SessionInvariant plugin.session)
    (stepped : pluginStep plugin action = some after) : SessionInvariant after.session := by
  rcases session_of_pluginStep stepped with same | ⟨inner, _, _, inside⟩
  · rw [same]
    exact invariant
  · exact invariant.step inside

/-- `Bound` has been pushed, and the device has not been asked to go on. -/
def Opened (device : Device) : Prop :=
  device.entered = [] ∧ device.state = .bound

/-- A step of the session other than a request or a step of the device thread
takes at most an entry from the queue, and takes back no cancellation. -/
theorem step_apart {action : Action} (notRequest : action ≠ .request)
    (notDevice : ∀ inner, action ≠ .device inner) (stepped : step session action = some later) :
    (Opened session.device → Opened later.device) ∧
      (Waits session → session.device.fStateQueue ≠ []) ∧
      (session.fResetDeviceRequested = true → later.fResetDeviceRequested = true) := by
  cases action with
  | command cmd =>
      simp only [Plugin.step] at stepped
      split at stepped <;> cases stepped
      rename_i isControl
      refine ⟨id, ?_, id⟩
      rintro ⟨wait, rest, isWaiting⟩
      cases isControl.symm.trans isWaiting
  | readState =>
      simp only [Plugin.step] at stepped
      split at stepped <;> cases stepped
      rename_i isControl
      refine ⟨id, ?_, fun isSet => by simp [isSet]⟩
      rintro ⟨wait, rest, isWaiting⟩
      cases isControl.symm.trans isWaiting
  | request => exact absurd rfl notRequest
  | waitForNext =>
      simp only [Plugin.step] at stepped
      split at stepped <;> cases stepped
      rename_i queue
      refine ⟨id, fun _ none => ?_, id⟩
      cases queue.symm.trans none
  | device inner => exact absurd rfl (notDevice inner)

/-- How a step of the plugin can lead to a place in the callback: `Bound` was
pushed, a transition was requested, or neither happened. -/
theorem callback_cases {action : PluginAction} {callback : BoundCallback}
    (invariant : SessionInvariant plugin.session)
    (stepped : pluginStep plugin action = some after) (isAfter : after.callback = some callback) :
    Opened after.session.device ∨
      (action = .session .request ∧ plugin.callback = some callback ∧
        step plugin.session .request = some after.session) ∨
      ∃ before, plugin.callback = some before ∧
        (before = callback ∨ ∃ peersReady,
          before.next plugin.isCanceled peersReady = some callback) ∧
        (Opened plugin.session.device → Opened after.session.device) ∧
        (plugin.Blocked → after.Blocked) ∧
        (plugin.session.fResetDeviceRequested = true →
          after.session.fResetDeviceRequested = true) := by
  cases action with
  | session inner =>
      rcases Option.ite_none_right_eq_some.mp stepped with ⟨permitted, moved⟩
      rcases Option.map_eq_some_iff.mp moved with ⟨session, inside, rfl⟩
      by_cases isDevice : ∃ moves, inner = .device moves
      · rcases isDevice with ⟨moves, rfl⟩
        left
        have outside : plugin.callback = none := permitted
        by_cases pushes : pushesBound plugin.session.device (.device moves)
        · cases moves with
          | automatic => cases pushes
          | finish => cases pushes
          | push =>
              rcases Option.map_eq_some_iff.mp inside with ⟨device, pushed, rfl⟩
              cases entered : plugin.session.device.entered with
              | nil => simp [pushesBound, entered] at pushes
              | cons oldest rest =>
                  have isBound : oldest = .bound := by
                    simpa [pushesBound, entered] using pushes
                  subst isBound
                  simp only [deviceStep, entered] at pushed
                  cases pushed
                  exact invariant.last.rest_eq_nil entered
        · simp [pushes, outside] at isAfter
      · right
        by_cases isRequest : inner = .request
        · subst isRequest
          left
          exact ⟨rfl, by simpa [pushesBound] using isAfter, inside⟩
        · right
          have notDevice : ∀ moves, inner ≠ .device moves := fun moves same =>
            isDevice ⟨moves, same⟩
          have notPushed : pushesBound plugin.session.device inner = false := by
            cases inner with
            | device moves => exact absurd rfl (notDevice moves)
            | _ => rfl
          rcases step_apart isRequest notDevice inside with ⟨opened, unblocked, flag⟩
          refine ⟨callback, by simpa [notPushed] using isAfter, Or.inl rfl, opened, ?_, flag⟩
          exact fun blocked => absurd blocked.2 (unblocked blocked.1)
  | returned =>
      simp only [pluginStep] at stepped
      split at stepped <;> cases stepped
      exact Or.inr (Or.inr ⟨callback, isAfter, Or.inl rfl, id, id, id⟩)
  | callback peersReady =>
      rcases Option.map_eq_some_iff.mp stepped with ⟨before, isBefore, rfl⟩
      exact Or.inr (Or.inr ⟨before, isBefore, Or.inr ⟨peersReady, isAfter⟩, id, id, id⟩)

/-- At a request the device has been opened only when nothing is unread. -/
theorem fStateQueue_of_opened {transition : DeviceStateTransition} {target : DeviceState}
    (requesting : Requesting device transition target) (opened : Opened device) :
    device.fStateQueue = [] := by
  apply Device.fStateQueue_eq_nil
  apply requesting.leftover.unread_eq_nil_of_ne
  · rw [opened.2]
    decide
  · rw [opened.2]
    decide

/-- From `Bound` only `Connect` and `ResetDevice` are requested. -/
theorem transition_of_opened {transition : DeviceStateTransition} {target : DeviceState}
    (requesting : Requesting device transition target) (opened : Opened device) :
    transition = .connect ∨ transition = .resetDevice := by
  rcases requesting.allowed with ⟨state, accepted, _⟩ | overtaken
  · rw [opened.2] at accepted
    cases transition <;> cases accepted
    · exact Or.inl rfl
    · exact Or.inr rfl
  · cases opened.2.symm.trans overtaken.finished

theorem waits_of_request (stepped : step session .request = some later) :
    Waits later ∧ later.device.fStateQueue = session.device.fStateQueue ∧
      ∃ transition target rest, session.control = .requesting transition target rest ∧
        later.fResetDeviceRequested = session.fResetDeviceRequested := by
  simp only [Plugin.step] at stepped
  split at stepped
  · rename_i isControl
    cases stepped
    exact ⟨⟨_, _, rfl⟩, Device.fStateQueue_changeDeviceState _ _, _, _, _, isControl, rfl⟩
  · cases stepped

/-- While the device thread is in the callback, the device is opened or the
control thread is blocked. -/
def CallbackInvariant (plugin : PluginState) : Prop :=
  ∀ callback, plugin.callback = some callback → Opened plugin.session.device ∨ plugin.Blocked

theorem CallbackInvariant.pluginStep {action : PluginAction} (paused : CallbackInvariant plugin)
    (invariant : SessionInvariant plugin.session)
    (stepped : pluginStep plugin action = some after) : CallbackInvariant after := by
  intro callback isAfter
  rcases callback_cases invariant stepped isAfter with
    opened | ⟨_, isBefore, inside⟩ | ⟨before, isBefore, _, opened, blocked, _⟩
  · exact Or.inl opened
  · rcases waits_of_request inside with ⟨waits, queue, transition, target, rest, isControl, _⟩
    rcases paused callback isBefore with opened | blocked
    · refine Or.inr ⟨waits, queue.trans ?_⟩
      exact fStateQueue_of_opened (invariant.requesting isControl) opened
    · rcases blocked.1 with ⟨wait, others, isWaiting⟩
      cases isControl.symm.trans isWaiting
  · rcases paused before isBefore with isOpened | isBlocked
    · exact Or.inl (opened isOpened)
    · exact Or.inr (blocked isBlocked)

/-- While the device thread is in the callback, the device is opened or the
callback is being cancelled at one of the places given. -/
def Cancelling (places : BoundCallback → Prop) (plugin : PluginState) : Prop :=
  ∀ callback, plugin.callback = some callback →
    Opened plugin.session.device ∨
      plugin.session.fResetDeviceRequested = true ∧ places callback

theorem Cancelling.pluginStep {places : BoundCallback → Prop} {action : PluginAction}
    (closed : ∀ callback peersReady later, places callback →
      callback.next true peersReady = some later → places later)
    (cancelling : Cancelling places plugin) (invariant : SessionInvariant plugin.session)
    (requests : action = .session .request → ∀ callback transition target rest,
      plugin.callback = some callback →
        plugin.session.control = .requesting transition target rest →
        Opened plugin.session.device → transition = .resetDevice ∧ places callback)
    (stepped : pluginStep plugin action = some after) : Cancelling places after := by
  intro callback isAfter
  rcases callback_cases invariant stepped isAfter with
    opened | ⟨isRequest, isBefore, inside⟩ | ⟨before, isBefore, moves, opened, _, flag⟩
  · exact Or.inl opened
  · rcases waits_of_request inside with ⟨_, _, transition, target, rest, isControl, same⟩
    rcases cancelling callback isBefore with opened | ⟨isSet, inPlace⟩
    · rcases requests isRequest callback transition target rest isBefore isControl opened with
        ⟨isReset, inPlace⟩
      have meaning := invariant.flag
      rw [ResetFlag, isControl] at meaning
      exact Or.inr ⟨same.trans (meaning.mpr isReset), inPlace⟩
    · exact Or.inr ⟨same.trans isSet, inPlace⟩
  · rcases cancelling before isBefore with isOpened | ⟨isSet, inPlace⟩
    · exact Or.inl (opened isOpened)
    · refine Or.inr ⟨flag isSet, ?_⟩
      rcases moves with rfl | ⟨peersReady, isNext⟩
      · exact inPlace
      · have canceled : plugin.isCanceled = true := by
          rw [PluginState.isCanceled, isSet, Bool.true_or]
        rw [canceled] at isNext
        exact closed before peersReady callback inPlace isNext

/-- A blocked control thread waits for a state that an opened device has pushed. -/
theorem not_blocked_of_opened (invariant : SessionInvariant plugin.session)
    (opened : Opened plugin.session.device) : ¬ plugin.Blocked := by
  rintro ⟨⟨wait, rest, isControl⟩, none⟩
  have comes := invariant.sound.comes wait rest isControl
  rw [Device.upcoming, Device.unread, opened.1, opened.2, none] at comes
  cases comes

/-- Once the shutdown is requested no message is executed any more. -/
def ShutdownFlag (plugin : PluginState) : Prop :=
  plugin.fPluginShutdownRequested = true →
    plugin.executing = none ∧ plugin.session.control = .commands []

theorem ShutdownFlag.pluginStep {action : PluginAction} (flag : ShutdownFlag plugin)
    (stepped : pluginStep plugin action = some after) : ShutdownFlag after := by
  cases action with
  | session inner =>
      rcases Option.ite_none_right_eq_some.mp stepped with ⟨permitted, moved⟩
      rcases Option.map_eq_some_iff.mp moved with ⟨session, inside, rfl⟩
      intro isSet
      rcases flag isSet with ⟨idle, isControl⟩
      cases inner with
      | command cmd => cases permitted.2.symm.trans isSet
      | readState => simp [Plugin.step, isControl] at inside
      | request => simp [Plugin.step, isControl] at inside
      | waitForNext => simp [Plugin.step, isControl] at inside
      | device moves =>
          rcases Option.map_eq_some_iff.mp inside with ⟨device, _, rfl⟩
          exact ⟨idle, isControl⟩
  | returned =>
      simp only [Plugin.pluginStep] at stepped
      split at stepped <;> cases stepped
      rename_i isControl
      exact fun _ => ⟨rfl, isControl⟩
  | callback peersReady =>
      rcases Option.map_eq_some_iff.mp stepped with ⟨callback, _, rfl⟩
      exact flag

/-- What holds in every state of the plugin, whatever is requested. -/
structure PluginInvariant (plugin : PluginState) : Prop where
  session : SessionInvariant plugin.session
  callback : CallbackInvariant plugin
  shutdown : ShutdownFlag plugin

theorem PluginInvariant.step {action : PluginAction} (invariant : PluginInvariant plugin)
    (stepped : pluginStep plugin action = some after) : PluginInvariant after :=
  ⟨invariant.session.pluginStep stepped, invariant.callback.pluginStep invariant.session stepped,
    invariant.shutdown.pluginStep stepped⟩

theorem PluginInitial.invariant (initial : PluginInitial plugin) : PluginInvariant plugin := by
  constructor
  · exact initial.session.sessionInvariant initial.reset
  · intro callback isCallback
    cases initial.callback.symm.trans isCallback
  · intro isSet
    cases initial.shutdown.symm.trans isSet

theorem PluginInitial.cancelling (initial : PluginInitial plugin)
    (places : BoundCallback → Prop) : Cancelling places plugin := by
  intro callback isCallback
  cases initial.callback.symm.trans isCallback

/-! ## Cancelling -/

/-- The message is executed on its own: nothing else is being executed and the
control thread is free. -/
structure Listening (plugin : PluginState) : Prop where
  control : plugin.session.control = .commands []
  executing : plugin.executing = none
  running : plugin.fPluginShutdownRequested = false

/-- The control thread is not blocked during a loop, and a command to reset or
to stop makes `IsCanceled` true. -/
structure Cancelable (plugin : PluginState) : Prop where
  free : ¬ plugin.Blocked
  reset : Listening plugin → ∃ canceled,
    run pluginStep plugin [.session (.command FairmqCommand.resetDevice), .session .readState] =
      some canceled ∧ canceled.isCanceled = true
  exit : Listening plugin → ∀ cmd, EndsPlugin cmd → ∃ canceled,
    run pluginStep plugin [.session (.command cmd), .returned] = some canceled ∧
      canceled.isCanceled = true

/-- A message received by a free control thread. -/
theorem pluginStep_command (listening : Listening plugin) (cmd : Text) :
    pluginStep plugin (.session (.command cmd)) =
      some { plugin with
        session :=
          { plugin.session with
            control := .commands (changeDeviceStateByMultiCommand plugin.session.device.state cmd) }
        executing := some cmd } := by
  simp [pluginStep, Permitted, step, pushesBound, listening.control, listening.executing,
    listening.running]

/-- At an opened device a command reaches the flags. -/
theorem cancelable_of_opened (invariant : PluginInvariant plugin)
    (opened : Opened plugin.session.device) : Cancelable plugin := by
  refine ⟨not_blocked_of_opened invariant.session opened, ?_, ?_⟩
  · intro listening
    have expands : changeDeviceStateByMultiCommand .bound FairmqCommand.resetDevice =
        [FairmqCommand.resetDevice] := by
      decide
    have branch : changeDeviceStateBySingleCommand .bound FairmqCommand.resetDevice = .reset := by
      decide
    have received := pluginStep_command listening FairmqCommand.resetDevice
    rw [opened.2, expands] at received
    simp only [run, received, Option.bind_some, Option.bind_fun_some]
    simp [pluginStep, Permitted, step, opened.2, branch, Branch.reset, PluginState.isCanceled]
  · intro listening cmd ends
    have expands : changeDeviceStateByMultiCommand .bound cmd = [] := by
      rcases ends with rfl | rfl | rfl <;> decide
    have received := pluginStep_command listening cmd
    rw [opened.2, expands] at received
    simp only [run, received, Option.bind_some, Option.bind_fun_some]
    simp [pluginStep, ends, PluginState.isCanceled]

theorem Control.of_requested {control : Control} {transition : DeviceStateTransition}
    (requested : control.requested = some transition) :
    ∃ target rest, control = .requesting transition target rest := by
  cases control <;> cases requested
  exact ⟨_, _, rfl⟩

/-- A request is made whatever the device thread is doing. -/
theorem pluginStep_request {transition : DeviceStateTransition} {target : DeviceState}
    {rest : List Text} (isControl : plugin.session.control = .requesting transition target rest) :
    ∃ after, pluginStep plugin (.session .request) = some after ∧ Waits after.session ∧
      after.session.device.fStateQueue = plugin.session.device.fStateQueue ∧
      after.callback = plugin.callback ∧ after.isCanceled = plugin.isCanceled := by
  have stepped : ∃ later, step plugin.session .request = some later := by
    simp [step, isControl]
  rcases stepped with ⟨later, stepped⟩
  rcases waits_of_request stepped with ⟨waits, queue, _, _, _, _, flag⟩
  refine ⟨{ plugin with session := later }, ?_, waits, queue, rfl, ?_⟩
  · simp [pluginStep, Permitted, stepped, pushesBound]
  · rw [PluginState.isCanceled, PluginState.isCanceled, flag]

/-- The callback comes to a loop, unless it is cancelled at a place from which it ends. -/
theorem BoundCallback.next_inLoop {callback : BoundCallback} {canceled : Bool}
    (outside : ¬ callback.InLoop) (goesOn : canceled = false ∨ ¬ callback.Leaves) :
    ∃ later, callback.next canceled false = some later ∧ later.InLoop := by
  cases callback with
  | waitBindAddress => exact absurd True.intro outside
  | readPeerAddress => exact absurd True.intro outside
  | waitForPeerConnection => exact absurd True.intro outside
  | resolveConnectAddress => exact ⟨.readPeerAddress, rfl, True.intro⟩
  | writeBindAddress =>
      rcases goesOn with rfl | stays
      · exact ⟨.waitBindAddress, rfl, True.intro⟩
      · exact absurd (Or.inl rfl) stays
  | writeConnectAddress =>
      rcases goesOn with rfl | stays
      · exact ⟨.waitForPeerConnection, rfl, True.intro⟩
      · exact absurd (Or.inr rfl) stays

/-- At a request other than `ResetDevice` neither flag is set. -/
theorem isCanceled_of_requesting {transition : DeviceStateTransition} {target : DeviceState}
    {rest : List Text} (invariant : PluginInvariant plugin)
    (isControl : plugin.session.control = .requesting transition target rest)
    (other : transition ≠ .resetDevice) : plugin.isCanceled = false := by
  have flag := invariant.session.flag
  rw [ResetFlag, isControl] at flag
  have notReset : plugin.session.fResetDeviceRequested = false :=
    Bool.eq_false_iff.mpr fun isSet => other (flag.mp isSet)
  have notShutdown : plugin.fPluginShutdownRequested = false := by
    rw [Bool.eq_false_iff]
    intro isSet
    cases isControl.symm.trans (invariant.shutdown isSet).2
  rw [PluginState.isCanceled, notReset, notShutdown, Bool.false_or]

/-- A request during the callback, other than a `ResetDevice` at a place from
which the callback ends, leads to a loop with the control thread blocked; after
`Connect` nothing cancels this loop. -/
theorem blocked_of_not_requestsApart (invariant : PluginInvariant plugin)
    (inside : ¬ RequestsApart plugin (.session .request)) :
    ∃ more bad, run pluginStep plugin more = some bad ∧ bad.InLoop ∧ bad.Blocked ∧
      (¬ ConnectsApart plugin (.session .request) → bad.isCanceled = false) := by
  simp only [RequestsApart, true_implies, not_forall] at inside
  rcases inside with ⟨callback, isCallback, transition, requested, goesOn⟩
  rcases Control.of_requested requested with ⟨target, rest, isControl⟩
  have opened : Opened plugin.session.device := by
    rcases invariant.callback callback isCallback with opened | ⟨⟨wait, others, isWaiting⟩, _⟩
    · exact opened
    · cases isControl.symm.trans isWaiting
  have requesting := invariant.session.requesting isControl
  rcases pluginStep_request isControl with ⟨after, stepped, waits, queue, same, canceled⟩
  have blocked : after.Blocked :=
    ⟨waits, queue.trans (fStateQueue_of_opened requesting opened)⟩
  have unaware : ¬ ConnectsApart plugin (.session .request) → after.isCanceled = false := by
    intro connects
    simp only [ConnectsApart, true_implies, not_or, not_not] at connects
    cases requested.symm.trans connects.2
    exact canceled.trans (isCanceled_of_requesting invariant isControl (by decide))
  by_cases inLoop : callback.InLoop
  · exact ⟨[.session .request], after, by simp [run, stepped],
      ⟨callback, same.trans isCallback, inLoop⟩, blocked, unaware⟩
  · have stays : after.isCanceled = false ∨ ¬ callback.Leaves := by
      rcases transition_of_opened requesting opened with isConnect | isReset
      · subst isConnect
        exact Or.inl (canceled.trans (isCanceled_of_requesting invariant isControl (by decide)))
      · exact Or.inr fun leaves => goesOn ⟨isReset, leaves⟩
    rcases BoundCallback.next_inLoop inLoop stays with ⟨later, isNext, enters⟩
    have moves : pluginStep after (.callback false) =
        some { after with callback := some later } := by
      simp [pluginStep, same.trans isCallback, isNext]
    exact ⟨[.session .request, .callback false], { after with callback := some later },
      by simp [run, stepped, moves], ⟨later, rfl, enters⟩, blocked, unaware⟩

/-! ## Runs of the plugin -/

/-- The invariant of a run in which requests are kept apart from the callback. -/
structure ApartInvariant (places : BoundCallback → Prop) (plugin : PluginState) : Prop where
  base : PluginInvariant plugin
  cancelling : Cancelling places plugin

theorem ApartInvariant.step_requestsApart {action : PluginAction}
    (invariant : ApartInvariant BoundCallback.Leaves plugin) (apart : RequestsApart plugin action)
    (stepped : pluginStep plugin action = some after) :
    ApartInvariant BoundCallback.Leaves after := by
  refine ⟨invariant.base.step stepped,
    invariant.cancelling.pluginStep ?_ invariant.base.session ?_ stepped⟩
  · rintro callback peersReady later (rfl | rfl) isNext
    · cases isNext
    · cases isNext
  · intro isRequest callback transition target rest isCallback isControl _
    exact apart isRequest callback isCallback transition (by rw [isControl]; rfl)

theorem ApartInvariant.step_connectsApart {action : PluginAction}
    (invariant : ApartInvariant (fun _ => True) plugin) (apart : ConnectsApart plugin action)
    (stepped : pluginStep plugin action = some after) : ApartInvariant (fun _ => True) after := by
  refine ⟨invariant.base.step stepped,
    invariant.cancelling.pluginStep (fun _ _ _ _ _ => True.intro) invariant.base.session ?_
      stepped⟩
  intro isRequest callback transition target rest isCallback isControl opened
  have requesting := invariant.base.session.requesting isControl
  rcases transition_of_opened requesting opened with isConnect | isReset
  · subst isConnect
    rcases apart isRequest with outside | other
    · cases outside.symm.trans isCallback
    · rw [isControl] at other
      exact absurd rfl other
  · exact ⟨isReset, True.intro⟩

/-- The wait for the peers can be cancelled in every run that keeps the requests
apart from the callback. When only `Connect` is kept apart, a loop during which
the control thread is blocked is cancelled already. Every other request leads
to a loop in which the control thread is blocked. -/
theorem waits_cancelable_iff (initial : PluginInitial plugin) (actions : List PluginAction) :
    (Meets pluginStep RequestsApart plugin actions →
        Always pluginStep (fun plugin => plugin.InLoop → Cancelable plugin) plugin actions) ∧
      (Meets pluginStep ConnectsApart plugin actions →
        Always pluginStep (fun plugin => plugin.InLoop → plugin.Blocked →
          plugin.isCanceled = true) plugin actions) ∧
      ∀ last, run pluginStep plugin actions = some last →
        ¬ RequestsApart last (.session .request) →
          ∃ more bad, run pluginStep last more = some bad ∧ bad.InLoop ∧ bad.Blocked ∧
            (¬ ConnectsApart last (.session .request) → bad.isCanceled = false) := by
  refine ⟨fun meets => ?_, fun meets => ?_, fun last reached => ?_⟩
  · refine always_of_invariant ApartInvariant.step_requestsApart ?_
      ⟨initial.invariant, initial.cancelling _⟩ meets
    rintro state invariant ⟨callback, isCallback, inLoop⟩
    rcases invariant.cancelling callback isCallback with opened | ⟨_, rfl | rfl⟩
    · exact cancelable_of_opened invariant.base opened
    · cases inLoop
    · cases inLoop
  · refine always_of_invariant ApartInvariant.step_connectsApart ?_
      ⟨initial.invariant, initial.cancelling _⟩ meets
    rintro state invariant ⟨callback, isCallback, _⟩ blocked
    rcases invariant.cancelling callback isCallback with opened | ⟨isSet, _⟩
    · exact absurd blocked (not_blocked_of_opened invariant.base.session opened)
    · rw [PluginState.isCanceled, isSet, Bool.true_or]
  · have holds : PluginInvariant last :=
      run_invariant (fun invariant _ stepped => PluginInvariant.step invariant stepped)
        initial.invariant (meets_of_forall (fun _ _ => True.intro) plugin actions) reached
    exact blocked_of_not_requestsApart holds

/-- A plugin whose startup state is `Idle`. -/
def startPlugin : PluginState where
  session := startSession
  callback := none
  executing := none
  fPluginShutdownRequested := false

theorem startPlugin_initial : PluginInitial startPlugin := by
  constructor
  · exact ⟨⟨[], rfl⟩, rfl, Or.inr rfl, rfl⟩
  · exact ⟨"idle".toList, by decide⟩
  · rfl
  · rfl
  · rfl
  · rfl

/-- `BIND` up to the first loop of the callback. -/
def bindActions : List PluginAction :=
  [.session (.command FairmqCommand.bind),
    .session .readState, .session .request, .session (.device .push), .session .waitForNext,
    .session .waitForNext,
    .session .readState, .session .request, .session (.device .push), .session .waitForNext,
    .session .readState, .session .request, .session (.device .push),
    .session (.device .automatic), .session (.device .push), .callback false,
    .session .waitForNext, .session .waitForNext, .returned]

/-- After `BIND` the wait for the peers can be cancelled. -/
theorem waits_cancelable_bind :
    Always pluginStep (fun plugin => plugin.InLoop → Cancelable plugin) startPlugin bindActions :=
  (waits_cancelable_iff startPlugin_initial bindActions).1 (by decide +kernel)

/-- `CONNECT` up to its wait loop, while the device thread is in `WaitBindAddress`. -/
def connectActions : List PluginAction :=
  .session (.command FairmqCommand.connect) :: bindActions.tail.dropLast ++
    [.session .readState, .session .request]

/-- After `CONNECT` the control thread is blocked during the wait for the peers. -/
theorem connect_blocks_cancel :
    ¬ ∀ plugin, PluginInitial plugin → ∀ actions last,
      run pluginStep plugin actions = some last → ¬ (last.InLoop ∧ last.Blocked) := by
  intro never
  have reached : ∃ last, run pluginStep startPlugin connectActions = some last ∧
      last.InLoop ∧ last.Blocked :=
    ⟨_, rfl, ⟨.waitBindAddress, rfl, True.intro⟩, ⟨_, _, rfl⟩, rfl⟩
  rcases reached with ⟨last, ran, bad⟩
  exact never startPlugin startPlugin_initial connectActions last ran bad

end NestDaq.Plugin
