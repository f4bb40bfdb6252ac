import NestDaq.Registry.Presence
import NestDaq.Store.Lease
import NestDaq.Topology.Rounds

/-!
# Lifetimes of the keys of an instance

An instance lets what it writes to the registry expire, and a timer renews it. All of it
is there as long as the timer is never late by more than what the lifetime leaves. After a
longer interruption the timer brings the presence back, but neither the address of the
host nor the keys of channels and sub-sockets, which it can only renew.
-/

namespace NestDaq.Plugin

open NestDaq.Expiring
open NestDaq.Registry
open NestDaq.Store
open NestDaq.Topology
open NestDaq.Topology.TopologyConfig
open NestDaq.Transition

def progOptionPrefix : Text := "option".toList

/-- The fields of a hash, none for anything else. -/
def fieldsOf : Option Value → Hash
  | some (.hash fields) => fields
  | _ => ∅

/-- What `HSET` makes of a value. -/
def hsetValue (fields : List (Text × Text)) (old : Option Value) : Value :=
  .hash (setFields (fieldsOf old) fields)

/-- What `RPUSH` makes of a value. -/
def rpushValue (items : List Text) (old : Option Value) : Value :=
  .list ((match old with
    | some (.list items) => items
    | _ => []) ++ items)

/-- `SETEX`. -/
def setex (key text : Text) : Op Text Value :=
  .put key (.string text)

/-- A queued command of the topology. -/
def opOf : Command → Op Text Value
  | .hset key fields => .change key (hsetValue fields)
  | .rpush key items => .change key (rpushValue items)
  | .expire key => .renew key

/-- What can be seen of a registry with deadlines at a time. -/
def Shows (leases : Leases Text Value) (now : Nat) (db : Db) : Prop :=
  ∀ key, db.lookup key = seen leases now key

/-- An instance and the registry at a time in milliseconds; `refreshed` is when the
instance has last written its presence. -/
structure Instance where
  topology : TopologyConfig
  fUuid : Text
  now : Nat
  leases : Leases Text Value
  refreshed : Nat

/-- What may happen. The expiry times that other clients give to other keys do not
matter. -/
inductive InstanceAction where
  | wait (duration : Nat)
  | resetTtl (lastChecked uptime state : Text)
  | stateChange (stateName : Text)
  | writeStartTime (t tNS : Text)
  | writeStopTime (t tNS : Text)
  | readChannels (bind connect : MQChannel)
  | writeChannel (sp : SocketProperty) (peers : List Text)
  | writeBindAddress (properties : Properties)
  | writeConnectAddress (properties : Properties)
  | reset
  | others (ops : List (Op Text Value))

/-! ## The keys that the plugin renews -/

section

variable (topology : TopologyConfig)

def fPresence : Text :=
  presenceKey topology.fServiceName topology.fId

def fHealth : Text :=
  healthKey topology.fServiceName topology.fId

def fFairMQStateKey : Text :=
  instanceStateKey topology.fServiceName topology.fId

/-- `<top>:<service>:<instance>:updatedTime`. -/
def fUpdateTimeKey : Text :=
  Text.join [topPrefix, topology.fServiceName, topology.fId, updateTimePrefix] colon

/-- `<top>:<service>:<instance>:option`. -/
def fProgOptionKeyName : Text :=
  Text.join [topPrefix, topology.fServiceName, topology.fId, progOptionPrefix] colon

/-- The keys that are there from the registration on until they are removed. -/
def held : List Text :=
  fPresence topology :: fHealth topology :: topology.fRegisteredKeys

/-- A key below the key of the instance. -/
def Below (key : Text) : Prop :=
  instanceKey topology.fServiceName topology.fId ++ [':'] <+: key

instance (key : Text) : Decidable (Below topology key) :=
  inferInstanceAs (Decidable (_ <+: _))

end

namespace Instance

variable (self : Instance)

/-- The pipeline of `Plugin::ResetTtl`, with the part of `TopologyConfig::ResetTtl`. -/
def resetTtlOps (lastChecked uptime state : Text) : List (Op Text Value) :=
  [.change (fHealth self.topology)
      (hsetValue [("updatedTime".toList, lastChecked), ("uptime".toList, uptime)]),
    setex (fPresence self.topology) self.fUuid, setex (fFairMQStateKey self.topology) state,
    setex (fUpdateTimeKey self.topology) lastChecked, .renew (fHealth self.topology),
    .renew (fProgOptionKeyName self.topology)] ++
  self.topology.fRegisteredKeys.map .renew

/-- The pipeline of the callback for a new state. -/
def stateChangeOps (stateName : Text) : List (Op Text Value) :=
  [setex (fFairMQStateKey self.topology) stateName,
    .change (fHealth self.topology) (hsetValue [("fair:mq:state".toList, stateName)]),
    .renew (fHealth self.topology)]

variable (term : Nat)

/-- Execute a pipeline. -/
def exec (ops : List (Op Text Value)) : Instance :=
  { self with leases := performAll term self.now self.leases ops }

/-- Execute a pipeline of the topology and note keys for the timer and for `Unregister`. -/
def publish (commands : List Command) (keys : List Text) : Instance :=
  { self.exec term (commands.map opOf) with
    topology := { self.topology with fRegisteredKeys := self.topology.fRegisteredKeys ++ keys } }

/-- One action, with a term of `fMaxTtl` seconds. -/
def step : Step Instance InstanceAction
  | self, .wait duration => some { self with now := self.now + duration }
  | self, .resetTtl lastChecked uptime state =>
      some ({ self with refreshed := self.now : Instance }.exec term
        (self.resetTtlOps lastChecked uptime state))
  | self, .stateChange stateName => some (self.exec term (self.stateChangeOps stateName))
  | self, .writeStartTime t tNS =>
      some (self.exec term [.change (fHealth self.topology)
        (hsetValue [("start_time".toList, t), ("start_time_ns".toList, tNS)])])
  | self, .writeStopTime t tNS =>
      some (self.exec term [.change (fHealth self.topology)
        (hsetValue [("stop_time".toList, t), ("stop_time_ns".toList, tNS)])])
  | self, .readChannels bind connect =>
      some { self with
        topology := { self.topology with fBindChannels := bind, fConnectChannels := connect } }
  | self, .writeChannel sp peers =>
      some (self.publish term (self.topology.writeChannel sp peers)
        (self.topology.channelKeys sp peers))
  | self, .writeBindAddress properties =>
      some (self.publish term (self.topology.writeBindAddress properties)
        (self.topology.addressKeys properties self.topology.fBindChannels))
  | self, .writeConnectAddress properties =>
      some (self.publish term (self.topology.writeConnectAddress properties)
        (self.topology.addressKeys properties self.topology.fConnectChannels))
  | self, .reset =>
      some { self.exec term (self.topology.fRegisteredKeys.map .erase) with
        topology := { self.topology with
          fBindChannels := ∅, fConnectChannels := ∅, fRegisteredKeys := [] } }
  | self, .others ops =>
      if ∀ op ∈ ops, ¬ Below self.topology op.key then some (self.exec term ops) else none

/-- `SetId` and `Register` for an instance that takes a new index. -/
def register (topology : TopologyConfig) (fUuid : Text) (fields : List (Text × Text)) (now : Nat)
    (leases : Leases Text Value) : Instance :=
  let self : Instance := ⟨topology, fUuid, now, leases, now⟩
  self.exec term [setex (fPresence self.topology) fUuid,
    .change (fHealth self.topology) (hsetValue fields), .renew (fHealth self.topology)]

/-- Everything that the timer renews is there, but what is written for the first time by
the timer itself. -/
def Alive : Prop :=
  ∀ key ∈ held self.topology, seen self.leases self.now key ≠ none

/-- Time passes only as far as the presence is there. -/
def InTime (self : Instance) : InstanceAction → Prop
  | .wait duration => self.now + duration < self.refreshed + term
  | _ => True

instance (self : Instance) : ∀ action, Decidable (InTime term self action)
  | .wait duration => inferInstanceAs (Decidable (self.now + duration < self.refreshed + term))
  | .resetTtl _ _ _ | .stateChange _ | .writeStartTime _ _ | .writeStopTime _ _
  | .readChannels _ _ | .writeChannel _ _ | .writeBindAddress _ | .writeConnectAddress _
  | .reset | .others _ => .isTrue trivial

end Instance

/-- An action that writes no keys of channels or sub-sockets. -/
def InstanceAction.Renews : InstanceAction → Prop
  | .writeChannel _ _ | .writeBindAddress _ | .writeConnectAddress _ | .reset => False
  | _ => True

section

variable {leases : Leases Text Value} {now term : Nat} {db : Db}

/-- Queued commands do the same to what is seen as without deadlines. -/
theorem Shows.exec (shows_ : Shows leases now db) (positive : 0 < term) (command : Command) :
    Shows (perform term now leases (opOf command)) now (command.exec db) := by
  intro key
  by_cases same : key = (opOf command).key
  · subst same
    rw [seen_perform_self positive]
    cases command with
    | hset key fields =>
        have fieldsEq : fieldsOf (seen leases now key) = hgetall db key := by
          rw [hgetall, shows_ key]
          rfl
        simp only [opOf, Op.key, hsetValue, fieldsEq]
        exact AList.lookup_insert _
    | rpush key items =>
        have itemsEq : rpushValue items (seen leases now key) =
            .list (lrange db key ++ items) := by
          rw [lrange, shows_ key]
          rfl
        simp only [opOf, Op.key, itemsEq]
        exact AList.lookup_insert _
    | expire key => exact shows_ key
  · have sameKey : (opOf command).key = command.key := by cases command <;> rfl
    rw [seen, live_perform_of_ne same, ← seen, ← shows_ key]
    exact command.lookup_exec_of_ne db (sameKey ▸ same)

/-- `SETEX` is `SET` to what is seen, and a renewal nothing. -/
theorem Shows.setex (shows_ : Shows leases now db) (positive : 0 < term) (key text : Text) :
    Shows (perform term now leases (setex key text)) now (set db key text) := by
  intro other
  by_cases same : other = key
  · subst same
    have put := @seen_perform_self _ _ leases now term _ (Plugin.setex other text) positive
    exact (AList.lookup_insert _).trans put.symm
  · rw [seen, live_perform_of_ne same, ← seen, ← shows_ other]
    exact lookup_set_of_ne db same text

theorem Shows.renewAll (shows_ : Shows leases now db) (positive : 0 < term) (keys : List Text) :
    Shows (performAll term now leases (keys.map .renew)) now db := by
  intro key
  rw [shows_ key, seen_performAll_of_renew positive]
  rintro op member rfl
  rcases List.mem_map.mp member with ⟨renewed, -, rfl⟩
  rfl

theorem Shows.execAll (shows_ : Shows leases now db) (positive : 0 < term)
    (commands : List Command) :
    Shows (performAll term now leases (commands.map opOf)) now (execAll db commands) := by
  induction commands generalizing leases db with
  | nil => exact shows_
  | cons command rest ih => exact ih (shows_.exec positive command)

/-- The timer writes what it writes to a registry without deadlines. -/
theorem Shows.resetTtl (shows_ : Shows leases now db) (positive : 0 < term) {self : Instance}
    {identity : Identity} (sameService : identity.fServiceName = self.topology.fServiceName)
    (sameId : identity.fId = self.topology.fId) (sameUuid : identity.fUuid = self.fUuid)
    (presence : identity.presence = fPresence self.topology) (lastChecked uptime state : Text) :
    Shows (performAll term now leases (self.resetTtlOps lastChecked uptime state)) now
      (identity.resetTtl db lastChecked uptime state) := by
  have health := shows_.exec positive (.hset (fHealth self.topology)
    [("updatedTime".toList, lastChecked), ("uptime".toList, uptime)])
  have values := ((health.setex positive (fPresence self.topology) self.fUuid).setex positive
    (fFairMQStateKey self.topology) state).setex positive (fUpdateTimeKey self.topology) lastChecked
  have renewed := values.renewAll positive
    (fHealth self.topology :: fProgOptionKeyName self.topology :: self.topology.fRegisteredKeys)
  have split : self.resetTtlOps lastChecked uptime state =
      opOf (.hset (fHealth self.topology)
          [("updatedTime".toList, lastChecked), ("uptime".toList, uptime)]) ::
        Plugin.setex (fPresence self.topology) self.fUuid ::
        Plugin.setex (fFairMQStateKey self.topology) state ::
        Plugin.setex (fUpdateTimeKey self.topology) lastChecked ::
        (fHealth self.topology :: fProgOptionKeyName self.topology ::
          self.topology.fRegisteredKeys).map .renew := rfl
  rw [Identity.resetTtl, Identity.fFairMQStateKey, Identity.fUpdateTimeKey, presence, sameUuid,
    sameService, sameId, split, performAll_cons, performAll_cons, performAll_cons, performAll_cons]
  exact renewed

end

/-! ## The keys of an instance -/

namespace Instance

variable {self : Instance} {term : Nat}

/-- A key of an instance with one more part. -/
theorem last_injective {service instanceId first second : Text}
    (same : Text.join [topPrefix, service, instanceId, first] colon =
      Text.join [topPrefix, service, instanceId, second] colon) : first = second := by
  simpa [colon] using same

theorem not_ownArea_last {topology : TopologyConfig} {last : Text}
    (notChannel : ¬ channelPrefix ++ [':'] <+: last)
    (notSocket : ¬ socketPrefix ++ [':'] <+: last) :
    ¬ OwnArea topology
      (Text.join [topPrefix, topology.fServiceName, topology.fId, last] colon) := by
  have absurdArea {kind : Text} (isPrefix : area topology.fServiceName topology.fId kind <+:
      Text.join [topPrefix, topology.fServiceName, topology.fId, last] colon) :
      kind ++ [':'] <+: last := by
    rcases isPrefix with ⟨rest, equal⟩
    have parts : kind ++ ':' :: rest = last := by
      simpa [area, instanceKey_eq, colon] using equal
    exact ⟨rest, by simpa using parts⟩
  rintro (inChannels | inSockets)
  · exact notChannel (absurdArea inChannels)
  · exact notSocket (absurdArea inSockets)

theorem not_ownArea_presence : ¬ OwnArea self.topology (fPresence self.topology) :=
  not_ownArea_last (by decide) (by decide)

theorem not_ownArea_health : ¬ OwnArea self.topology (fHealth self.topology) :=
  not_ownArea_last (by decide) (by decide)

theorem below_last (last : Text) : Below self.topology
    (Text.join [topPrefix, self.topology.fServiceName, self.topology.fId, last] colon) :=
  ⟨last, by simp [instanceKey_eq, colon]⟩

theorem presence_mem_held : fPresence self.topology ∈ held self.topology :=
  List.mem_cons_self

theorem health_mem_held : fHealth self.topology ∈ held self.topology :=
  List.mem_cons_of_mem _ List.mem_cons_self

theorem mem_held_of_registered {key : Text} (isRegistered : key ∈ self.topology.fRegisteredKeys) :
    key ∈ held self.topology :=
  List.mem_cons_of_mem _ (List.mem_cons_of_mem _ isRegistered)

/-- What is known of the deadlines at any time. -/
structure Leased (term : Nat) (inst : Instance) : Prop where
  standard : inst.topology.Standard
  notAhead : inst.refreshed ≤ inst.now
  presence : Expires inst.leases (fPresence inst.topology) (inst.refreshed + term)
  health : Until inst.leases (fHealth inst.topology) (inst.refreshed + term)
  own : ∀ key ∈ inst.topology.fRegisteredKeys, OwnArea inst.topology key
  registered : ∀ key ∈ inst.topology.fRegisteredKeys,
    Until inst.leases key (inst.refreshed + term)
  within : ∀ key ∈ held inst.topology, Within inst.leases key (inst.now + term)

namespace Leased

/-- Keys that have all been written or renewed at the time of the presence. -/
theorem of_expires {topology : TopologyConfig} {fUuid : Text} {now : Nat}
    {leases : Leases Text Value} (standard : topology.Standard)
    (own : ∀ key ∈ topology.fRegisteredKeys, OwnArea topology key)
    (expires : ∀ key ∈ held topology, Expires leases key (now + term)) :
    Leased term ⟨topology, fUuid, now, leases, now⟩ := by
  constructor
  · exact standard
  · exact Nat.le_refl _
  · exact expires _ List.mem_cons_self
  · exact (expires _ (List.mem_cons_of_mem _ List.mem_cons_self)).until
  · exact own
  · exact fun key isRegistered =>
      (expires key (List.mem_cons_of_mem _ (List.mem_cons_of_mem _ isRegistered))).until
  · exact fun key isHeld => (expires key isHeld).within

variable (leased : Leased term self)

include leased

theorem until_held {key : Text} (isHeld : key ∈ held self.topology) :
    Until self.leases key (self.refreshed + term) := by
  rcases List.mem_cons.mp isHeld with rfl | isHeld
  · exact leased.presence.until
  rcases List.mem_cons.mp isHeld with rfl | isRegistered
  · exact leased.health
  · exact leased.registered key isRegistered

theorem below_held {key : Text} (isHeld : key ∈ held self.topology) : Below self.topology key := by
  rcases List.mem_cons.mp isHeld with rfl | isHeld
  · exact below_last _
  rcases List.mem_cons.mp isHeld with rfl | isRegistered
  · exact below_last _
  · exact instanceKey_of_ownArea (leased.own key isRegistered)

/-- Everything is there exactly for one term after the presence was written. -/
theorem alive_iff : self.Alive ↔ self.now < self.refreshed + term := by
  constructor
  · intro alive
    rcases leased.presence with ⟨value, found⟩
    exact (seen_ne_none_iff found rfl).mp (alive _ List.mem_cons_self)
  · intro before key isHeld
    rcases (leased.until_held isHeld).exists_seen before with ⟨value, isSeen⟩
    rw [isSeen]
    exact Option.some_ne_none value

theorem soon : self.refreshed + term ≤ self.now + term :=
  Nat.add_le_add_right leased.notAhead term

variable (alive : self.Alive) (positive : 0 < term)

include alive positive

/-- Pipelines that leave the presence alone and erase nothing. -/
theorem exec {ops : List (Op Text Value)} (keeps : ∀ key, ∀ op ∈ ops, op ≠ .erase key)
    (notPresence : ∀ op ∈ ops, op.key ≠ fPresence self.topology) :
    Leased term (self.exec term ops) := by
  have before := leased.alive_iff.mp alive
  constructor
  · exact leased.standard
  · exact leased.notAhead
  · rcases leased.presence with ⟨value, found⟩
    exact ⟨value, (performAll_of_ne notPresence).trans found⟩
  · exact leased.health.performAll before leased.soon (keeps _)
  · exact leased.own
  · intro key isRegistered
    exact (leased.registered key isRegistered).performAll before leased.soon (keeps key)
  · intro key isHeld
    exact (leased.within key isHeld).performAll (Nat.le_refl _) positive
      (fun lapsed => alive key isHeld (seen_eq_none_iff.mpr lapsed)) (keeps key)

omit leased alive positive in
theorem ne_presence_of_ownArea {key : Text} (own : OwnArea self.topology key) :
    key ≠ fPresence self.topology := by
  rintro rfl
  exact not_ownArea_presence own

/-- Pipelines of the topology, where each noted key is made and renewed. -/
theorem publish {commands : List Command} {keys : List Text}
    (own : ∀ command ∈ commands, OwnArea self.topology command.key)
    (made : ∀ key ∈ keys, ∃ f, [.change key f, .renew key] <:+: commands.map opOf) :
    Leased term (self.publish term commands keys) := by
  have keeps (key : Text) : ∀ op ∈ commands.map opOf, op ≠ .erase key := by
    intro op member
    rcases List.mem_map.mp member with ⟨command, -, rfl⟩
    cases command <;> exact fun same => by cases same
  have ownOp : ∀ op ∈ commands.map opOf, OwnArea self.topology op.key := by
    intro op member
    rcases List.mem_map.mp member with ⟨command, inCommands, rfl⟩
    cases command <;> exact own _ inCommands
  have executed := leased.exec alive positive keeps fun op member =>
    ne_presence_of_ownArea (ownOp op member)
  have expires {key : Text} (isKey : key ∈ keys) :
      Expires (performAll term self.now self.leases (commands.map opOf)) key (self.now + term) := by
    rcases made key isKey with ⟨f, both⟩
    exact expires_of_change_renew positive (keeps key) both
  constructor
  · exact ⟨leased.standard.top, leased.standard.separator⟩
  · exact leased.notAhead
  · exact executed.presence
  · exact executed.health
  · intro key isRegistered
    rcases List.mem_append.mp isRegistered with old | new
    · exact leased.own key old
    · rcases made key new with ⟨f, both⟩
      exact ownOp (.renew key) (both.subset (by simp))
  · intro key isRegistered
    rcases List.mem_append.mp isRegistered with old | new
    · exact executed.registered key old
    · exact (expires new).until.mono leased.soon
  · intro key isHeld
    rcases List.mem_append.mp (show key ∈ held self.topology ++ keys from isHeld) with old | new
    · exact executed.within key old
    · exact (expires new).within

theorem writeChannel (sp : SocketProperty) (peers : List Text) :
    Leased term (self.publish term (self.topology.writeChannel sp peers)
      (self.topology.channelKeys sp peers)) := by
  have standard := leased.standard
  apply leased.publish alive positive
  · intro command member
    rw [TopologyConfig.writeChannel] at member
    split at member
    · cases member
    · simp only [List.mem_cons, List.not_mem_nil, or_false] at member
      rw [peerListKey_eq standard, channelKey_eq standard] at member
      rcases member with rfl | rfl | rfl | rfl
      · exact Or.inl (area_prefix_instanceChannelKey _ _ _)
      · exact Or.inl (area_prefix_instanceChannelKey _ _ _)
      · exact Or.inl (area_prefix_instancePeerKey _ _ _)
      · exact Or.inl (area_prefix_instancePeerKey _ _ _)
  · intro key isKey
    rw [TopologyConfig.channelKeys] at isKey
    rw [TopologyConfig.writeChannel]
    split at isKey
    · cases isKey
    · rename_i nonempty
      rw [if_neg nonempty]
      simp only [List.mem_cons, List.not_mem_nil, or_false] at isKey
      rcases isKey with rfl | rfl
      · exact ⟨_, [], _, rfl⟩
      · exact ⟨_, [_, _], [], rfl⟩

/-- `WriteAddress`, where what follows the sub-sockets are fields of channels. -/
theorem writeAddress (properties : Properties) (channels : MQChannel) {f : Text → List Command}
    (marks : ∀ name, ∀ command ∈ f name,
      ∃ channel fields, command = .hset (self.topology.channelKey channel) fields) :
    Leased term (self.publish term (self.topology.writeAddress properties channels f)
      (self.topology.addressKeys properties channels)) := by
  have standard := leased.standard
  apply leased.publish alive positive
  · intro command member
    rcases List.mem_flatMap.mp member with ⟨entry, -, member⟩
    rcases List.mem_append.mp member with inSockets | inMarks
    · rcases List.mem_flatMap.mp inSockets with ⟨index, -, written⟩
      have isSocket : command.key = self.topology.socketKey entry.2.name index := by
        simp only [TopologyConfig.writeSubSocket, List.mem_cons, List.not_mem_nil, or_false]
          at written
        rcases written with rfl | rfl <;> rfl
      rw [isSocket, socketKey_eq standard]
      exact Or.inr (area_prefix_instanceSocketKey _ _ _ _)
    · rcases marks entry.1 command inMarks with ⟨channel, fields, rfl⟩
      rw [Command.key, channelKey_eq standard]
      exact Or.inl (area_prefix_instanceChannelKey _ _ _)
  · intro key isKey
    rcases List.mem_flatMap.mp isKey with ⟨entry, inChannels, isKey⟩
    rcases List.mem_map.mp isKey with ⟨index, inRange, rfl⟩
    have inSockets := List.infix_of_mem_flatten
      (List.mem_map_of_mem inRange : self.topology.writeSubSocket properties entry.2 index ∈ _)
    have inCommands := List.infix_of_mem_flatten (List.mem_map_of_mem inChannels :
      (List.range (subSocketCount properties entry.2.name)).flatMap
        (self.topology.writeSubSocket properties entry.2) ++ f entry.1 ∈
          (ordered channels).map fun channel =>
            (List.range (subSocketCount properties channel.2.name)).flatMap
              (self.topology.writeSubSocket properties channel.2) ++ f channel.1)
    exact ⟨_, ((inSockets.trans (List.prefix_append _ _).isInfix).trans inCommands).map opOf⟩

/-- The timer. -/
theorem resetTtl (lastChecked uptime state : Text) :
    Leased term ({ self with refreshed := self.now : Instance }.exec term
      (self.resetTtlOps lastChecked uptime state)) := by
  have keeps (key : Text) : ∀ op ∈ self.resetTtlOps lastChecked uptime state, op ≠ .erase key := by
    intro op member same
    simp [resetTtlOps, setex, same] at member
  have expires {key : Text} (isHeld : key ∈ held self.topology) :
      Expires (performAll term self.now self.leases (self.resetTtlOps lastChecked uptime state)) key
        (self.now + term) := by
    have isLive : live self.leases self.now key ≠ none := fun lapsed =>
      alive key isHeld (seen_eq_none_iff.mpr lapsed)
    rcases List.mem_cons.mp isHeld with rfl | isHeld
    · exact @expires_performAll _ _ _ _ _ _ _ (setex (fPresence self.topology) self.fUuid) _
        positive (keeps _) (by simp [resetTtlOps]) trivial (Or.inl ⟨_, rfl⟩)
    have renewed : .renew key ∈ self.resetTtlOps lastChecked uptime state := by
      rcases List.mem_cons.mp isHeld with rfl | isRegistered
      · simp [resetTtlOps]
      · exact List.mem_append_right _ (List.mem_map_of_mem isRegistered)
    exact expires_performAll positive (keeps _) renewed trivial (Or.inr ⟨rfl, isLive⟩)
  exact of_expires leased.standard leased.own (fun key isHeld => expires isHeld)

omit alive positive

/-- Time passes. -/
theorem wait (duration : Nat) : Leased term { self with now := self.now + duration } := by
  constructor
  · exact leased.standard
  · exact leased.notAhead.trans (Nat.le_add_right _ _)
  · exact leased.presence
  · exact leased.health
  · exact leased.own
  · exact leased.registered
  · intro key isHeld
    apply (leased.within key isHeld).mono
    change self.now + term ≤ self.now + duration + term
    omega

theorem readChannels (bind connect : MQChannel) :
    Leased term { self with
      topology := { self.topology with fBindChannels := bind, fConnectChannels := connect } } :=
  ⟨⟨leased.standard.top, leased.standard.separator⟩, leased.notAhead, leased.presence,
    leased.health, leased.own, leased.registered, leased.within⟩

/-- Pipelines on other keys. -/
theorem exec_of_ne {ops : List (Op Text Value)}
    (others : ∀ key ∈ held self.topology, ∀ op ∈ ops, op.key ≠ key) :
    Leased term (self.exec term ops) := by
  have same {key : Text} (isHeld : key ∈ held self.topology) :
      performAll term self.now self.leases ops key = self.leases key :=
    performAll_of_ne (others key isHeld)
  constructor
  · exact leased.standard
  · exact leased.notAhead
  · rcases leased.presence with ⟨value, found⟩
    exact ⟨value, (same presence_mem_held).trans found⟩
  · rcases leased.health with ⟨lease, found, after⟩
    exact ⟨lease, (same health_mem_held).trans found, after⟩
  · exact leased.own
  · intro key isRegistered
    rcases leased.registered key isRegistered with ⟨lease, found, after⟩
    exact ⟨lease, (same (mem_held_of_registered isRegistered)).trans found, after⟩
  · intro key isHeld lease found
    exact leased.within key isHeld lease ((same isHeld).symm.trans found)

/-- `Reset` erases nothing but the registered keys. -/
theorem reset : Leased term { self.exec term (self.topology.fRegisteredKeys.map .erase) with
    topology := { self.topology with
      fBindChannels := ∅, fConnectChannels := ∅, fRegisteredKeys := [] } } := by
  have same {key : Text} (notOwn : ¬ OwnArea self.topology key) :
      performAll term self.now self.leases (self.topology.fRegisteredKeys.map .erase) key =
        self.leases key := by
    apply performAll_of_ne
    intro op member
    rcases List.mem_map.mp member with ⟨erased, isRegistered, rfl⟩
    rintro rfl
    exact notOwn (leased.own _ isRegistered)
  constructor
  · exact ⟨leased.standard.top, leased.standard.separator⟩
  · exact leased.notAhead
  · rcases leased.presence with ⟨value, found⟩
    exact ⟨value, (same not_ownArea_presence).trans found⟩
  · rcases leased.health with ⟨lease, found, after⟩
    exact ⟨lease, (same not_ownArea_health).trans found, after⟩
  · intro key isRegistered
    cases isRegistered
  · intro key isRegistered
    cases isRegistered
  · intro key isHeld lease found
    rcases List.mem_cons.mp isHeld with rfl | isHeld
    · exact leased.within _ presence_mem_held lease ((same not_ownArea_presence).symm.trans found)
    rcases List.mem_cons.mp isHeld with rfl | isRegistered
    · exact leased.within _ health_mem_held lease ((same not_ownArea_health).symm.trans found)
    · cases isRegistered

include alive positive

/-- Any action, as long as everything is there. -/
theorem step {action : InstanceAction} {next : Instance}
    (stepped : Instance.step term self action = some next) : Leased term next := by
  have notPresence {last : Text} (differs : last ≠ presencePrefix) :
      Text.join [topPrefix, self.topology.fServiceName, self.topology.fId, last] colon ≠
        fPresence self.topology := fun same => differs (last_injective same)
  have healthOnly (fields : List (Text × Text)) :
      Leased term (self.exec term [.change (fHealth self.topology) (hsetValue fields)]) := by
    apply leased.exec alive positive
    · intro key op member same
      simp [same] at member
    · intro op member
      rw [List.mem_singleton.mp member]
      exact notPresence (by decide)
  cases action with
  | wait duration =>
      cases stepped
      exact leased.wait duration
  | resetTtl lastChecked uptime state =>
      cases stepped
      exact leased.resetTtl alive positive lastChecked uptime state
  | stateChange stateName =>
      cases stepped
      apply leased.exec alive positive
      · intro key op member same
        simp [stateChangeOps, setex, same] at member
      · intro op member
        simp only [stateChangeOps, List.mem_cons, List.not_mem_nil, or_false] at member
        rcases member with rfl | rfl | rfl
        · exact notPresence (by decide)
        · exact notPresence (by decide)
        · exact notPresence (by decide)
  | writeStartTime t tNS =>
      cases stepped
      exact healthOnly _
  | writeStopTime t tNS =>
      cases stepped
      exact healthOnly _
  | readChannels bind connect =>
      cases stepped
      exact leased.readChannels bind connect
  | writeChannel sp peers =>
      cases stepped
      exact leased.writeChannel alive positive sp peers
  | writeBindAddress properties =>
      cases stepped
      apply leased.writeAddress alive positive
      intro name command mark
      exact ⟨name, _, List.mem_singleton.mp mark⟩
  | writeConnectAddress properties =>
      cases stepped
      apply leased.writeAddress alive positive
      intro name command mark
      cases mark
  | reset =>
      cases stepped
      exact leased.reset
  | others ops =>
      simp only [Instance.step] at stepped
      split at stepped
      · rename_i outside
        cases stepped
        apply leased.exec_of_ne
        rintro key isHeld op member rfl
        exact outside op member (leased.below_held isHeld)
      · cases stepped

end Leased

theorem leased_register (positive : 0 < term) {topology : TopologyConfig}
    (standard : topology.Standard) (noKeys : topology.fRegisteredKeys = []) (fUuid : Text)
    (fields : List (Text × Text)) (now : Nat) (leases : Leases Text Value) :
    Leased term (register term topology fUuid fields now leases) := by
  generalize initialEq : (⟨topology, fUuid, now, leases, now⟩ : Instance) = self
  have registerEq : register term topology fUuid fields now leases =
      self.exec term [setex (fPresence self.topology) fUuid,
        .change (fHealth self.topology) (hsetValue fields), .renew (fHealth self.topology)] := by
    rw [← initialEq]
    rfl
  have keeps (key : Text) : ∀ op ∈ [setex (fPresence self.topology) fUuid,
      .change (fHealth self.topology) (hsetValue fields), .renew (fHealth self.topology)],
      op ≠ .erase key := by
    intro op member same
    simp [setex, same] at member
  have presence := @expires_performAll _ _ self.leases self.now term (fPresence self.topology) _ _ _
    positive (keeps _) List.mem_cons_self trivial (Or.inl ⟨_, rfl⟩)
  have health := @expires_of_change_renew _ _ self.leases self.now term (fHealth self.topology) _ _
    positive (keeps _) (hsetValue fields) (List.suffix_cons _ _).isInfix
  rw [registerEq, ← initialEq]
  apply Leased.of_expires standard
  · intro key isRegistered
    rw [noKeys] at isRegistered
    cases isRegistered
  · intro key isHeld
    rw [← initialEq] at presence health
    rcases List.mem_cons.mp isHeld with rfl | isHeld
    · exact presence
    rcases List.mem_cons.mp isHeld with rfl | isRegistered
    · exact health
    · rw [noKeys] at isRegistered
      cases isRegistered

/-- After an action everything is there exactly if it was in time. -/
theorem Leased.alive_next_iff (leased : Leased term self) (alive : self.Alive) (positive : 0 < term)
    {action : InstanceAction} {next : Instance}
    (stepped : Instance.step term self action = some next) :
    next.Alive ↔ InTime term self action := by
  rw [(leased.step alive positive stepped).alive_iff]
  have before := leased.alive_iff.mp alive
  cases action with
  | wait duration =>
      cases stepped
      exact Iff.rfl
  | resetTtl lastChecked uptime state =>
      cases stepped
      exact iff_of_true (Nat.lt_add_of_pos_right positive) trivial
  | others ops =>
      simp only [Instance.step] at stepped
      split at stepped
      · cases stepped
        exact iff_of_true before trivial
      · cases stepped
  | stateChange _ | writeStartTime _ _ | writeStopTime _ _ | readChannels _ _ | writeChannel _ _
  | writeBindAddress _ | writeConnectAddress _ | reset =>
      cases stepped
      exact iff_of_true before trivial

section

variable (positive : 0 < term) {topology : TopologyConfig} (standard : topology.Standard)
  (noKeys : topology.fRegisteredKeys = []) (fUuid : Text) (fields : List (Text × Text)) (now : Nat)
  (leases : Leases Text Value)

include positive standard noKeys

theorem alive_register : (register term topology fUuid fields now leases).Alive :=
  (leased_register positive standard noKeys fUuid fields now leases).alive_iff.mpr
    (Nat.lt_add_of_pos_right positive)

/-- Whatever an instance and the others do after its registration, everything that it has
written is there all the time if and only if never as much time as the lifetime passes
after the timer, or the registration, has written the presence. -/
theorem always_alive_iff (actions : List InstanceAction) :
    Always (step term) Alive (register term topology fUuid fields now leases) actions ↔
      Meets (step term) (InTime term) (register term topology fUuid fields now leases) actions := by
  apply @always_iff_meets _ _ _ _ (Leased term)
  · exact fun leased alive stepped => leased.step alive positive stepped
  · exact fun leased alive stepped => leased.alive_next_iff alive positive stepped
  · intro state action refused
    cases action with
    | wait duration => cases refused
    | resetTtl _ _ _ | stateChange _ | writeStartTime _ _ | writeStopTime _ _ | readChannels _ _
    | writeChannel _ _ | writeBindAddress _ | writeConnectAddress _ | reset | others _ => trivial
  · exact leased_register positive standard noKeys fUuid fields now leases
  · exact alive_register positive standard noKeys fUuid fields now leases

end

/-! ## After an interruption -/

/-- The keys of channels and sub-sockets are gone, and so is the address of the host. -/
structure Lost (keys : List Text) (inst : Instance) : Prop where
  sameKeys : inst.topology.fRegisteredKeys = keys
  own : ∀ key ∈ keys, OwnArea inst.topology key
  registered : ∀ key ∈ keys, live inst.leases inst.now key = none
  hostIp : (fieldsOf (seen inst.leases inst.now (fHealth inst.topology))).lookup
    "hostIp".toList = none

/-- A command that brings back neither. -/
def Spares (topology : TopologyConfig) (op : Op Text Value) : Prop :=
  (OwnArea topology op.key → ¬ op.Creates) ∧
    (op.key = fHealth topology → op = .renew (fHealth topology) ∨ ∃ fields,
      op = .change (fHealth topology) (hsetValue fields) ∧
        "hostIp".toList ∉ fields.map Prod.fst)

theorem lookup_hostIp_perform (positive : 0 < term) {leases : Leases Text Value} {now : Nat}
    {topology : TopologyConfig} {op : Op Text Value} (spares : Spares topology op)
    (gone : (fieldsOf (seen leases now (fHealth topology))).lookup "hostIp".toList = none) :
    (fieldsOf (seen (perform term now leases op) now (fHealth topology))).lookup
      "hostIp".toList = none := by
  by_cases same : fHealth topology = op.key
  · rcases spares.2 same.symm with rfl | ⟨fields, rfl, absent⟩
    · have unchanged := @seen_perform_self _ _ leases now term _ (.renew (fHealth topology))
        positive
      exact
        (congrArg (fun value => (fieldsOf value).lookup "hostIp".toList) unchanged).trans gone
    · have changed := @seen_perform_self _ _ leases now term _
        (.change (fHealth topology) (hsetValue fields)) positive
      apply (congrArg (fun value => (fieldsOf value).lookup "hostIp".toList) changed).trans
      exact (lookup_setFields_of_notMem absent).trans gone
  · have unchanged : seen (perform term now leases op) now (fHealth topology) =
        seen leases now (fHealth topology) :=
      congrArg (Option.map Lease.value) (live_perform_of_ne same)
    rw [unchanged]
    exact gone

namespace Lost

variable {keys : List Text} (lost : Lost keys self)

include lost

theorem exec (positive : 0 < term) {ops : List (Op Text Value)}
    (spares : ∀ op ∈ ops, Spares self.topology op) : Lost keys (self.exec term ops) := by
  constructor
  · exact lost.sameKeys
  · exact lost.own
  · intro key isKey
    apply performAll_eq_none (lost.registered key isKey)
    rintro op member rfl
    exact (spares op member).1 (lost.own _ isKey)
  · have hostIp := lost.hostIp
    change (fieldsOf (seen (performAll term self.now self.leases ops) self.now
      (fHealth self.topology))).lookup "hostIp".toList = none
    generalize self.leases = leases at hostIp
    induction ops generalizing leases with
    | nil => exact hostIp
    | cons op rest ih =>
        exact ih (fun other member => spares other (List.mem_cons_of_mem _ member)) _
          (lookup_hostIp_perform positive (spares op List.mem_cons_self) hostIp)

theorem step (positive : 0 < term) {action : InstanceAction} {next : Instance}
    (renews : action.Renews) (stepped : Instance.step term self action = some next) :
    Lost keys next := by
  have ofHealth {fields : List (Text × Text)} (absent : "hostIp".toList ∉ fields.map Prod.fst) :
      Spares self.topology (.change (fHealth self.topology) (hsetValue fields)) :=
    ⟨fun own => absurd own not_ownArea_health, fun _ => Or.inr ⟨fields, rfl, absent⟩⟩
  have ofLast {last : Text} (text : Text) (notChannel : ¬ channelPrefix ++ [':'] <+: last)
      (notSocket : ¬ socketPrefix ++ [':'] <+: last) (notHealth : last ≠ healthPrefix) :
      Spares self.topology (setex
        (Text.join [topPrefix, self.topology.fServiceName, self.topology.fId, last] colon) text) :=
    ⟨fun own => absurd own (not_ownArea_last notChannel notSocket),
      fun same => absurd (last_injective same) notHealth⟩
  have ofRenew (key : Text) : Spares self.topology (.renew key) :=
    ⟨fun _ => id, fun same => Or.inl (congrArg Op.renew same)⟩
  have healthOnly {fields : List (Text × Text)} (absent : "hostIp".toList ∉ fields.map Prod.fst) :
      Lost keys (self.exec term [.change (fHealth self.topology) (hsetValue fields)]) := by
    apply lost.exec positive
    intro op member
    rw [List.mem_singleton.mp member]
    exact ofHealth absent
  cases action with
  | writeChannel _ _ | writeBindAddress _ | writeConnectAddress _ | reset => cases renews
  | wait duration =>
      cases stepped
      have later : self.now ≤ self.now + duration := Nat.le_add_right _ _
      constructor
      · exact lost.sameKeys
      · exact lost.own
      · exact fun key isKey => live_eq_none_of_le later (lost.registered key isKey)
      · rcases @seen_of_le _ _ self.leases _ _ (fHealth self.topology) later with lapsed | same
        · change (fieldsOf (seen self.leases (self.now + duration) (fHealth self.topology))).lookup
            "hostIp".toList = none
          rw [lapsed]
          rfl
        · change (fieldsOf (seen self.leases (self.now + duration) (fHealth self.topology))).lookup
            "hostIp".toList = none
          rw [same]
          exact lost.hostIp
  | resetTtl lastChecked uptime state =>
      cases stepped
      have exec := @exec { self with refreshed := self.now } term keys
        ⟨lost.sameKeys, lost.own, lost.registered, lost.hostIp⟩ positive
      apply exec
      intro op member
      rcases List.mem_append.mp member with inFront | inTopology
      · simp only [List.mem_cons, List.not_mem_nil, or_false] at inFront
        rcases inFront with rfl | rfl | rfl | rfl | rfl | rfl
        · exact ofHealth (by simp)
        · exact ofLast _ (by decide) (by decide) (by decide)
        · exact ofLast _ (by decide) (by decide) (by decide)
        · exact ofLast _ (by decide) (by decide) (by decide)
        · exact ofRenew _
        · exact ofRenew _
      · rcases List.mem_map.mp inTopology with ⟨key, -, rfl⟩
        exact ofRenew _
  | stateChange stateName =>
      cases stepped
      apply lost.exec positive
      intro op member
      simp only [stateChangeOps, List.mem_cons, List.not_mem_nil, or_false] at member
      rcases member with rfl | rfl | rfl
      · exact ofLast _ (by decide) (by decide) (by decide)
      · exact ofHealth (by simp)
      · exact ofRenew _
  | writeStartTime t tNS =>
      cases stepped
      exact healthOnly (by simp)
  | writeStopTime t tNS =>
      cases stepped
      exact healthOnly (by simp)
  | readChannels bind connect =>
      cases stepped
      exact ⟨lost.sameKeys, lost.own, lost.registered, lost.hostIp⟩
  | others ops =>
      simp only [Instance.step] at stepped
      split at stepped
      · rename_i outside
        cases stepped
        apply lost.exec positive
        intro op member
        constructor
        · exact fun own => absurd (instanceKey_of_ownArea own) (outside op member)
        · intro same
          exact absurd (same ▸ below_last healthPrefix) (outside op member)
      · cases stepped

end Lost

/-- The timer always brings the presence back. -/
theorem seen_presence_resetTtl (positive : 0 < term) {lastChecked uptime state : Text}
    {next : Instance} (stepped : step term self (.resetTtl lastChecked uptime state) = some next) :
    seen next.leases next.now (fPresence next.topology) = some (.string next.fUuid) := by
  cases stepped
  have others : ∀ op ∈ (self.resetTtlOps lastChecked uptime state).drop 2,
      op.key = fPresence self.topology → op = .renew (fPresence self.topology) := by
    intro op member same
    rcases List.mem_append.mp (show op ∈ _ ++ _ from member) with inFront | inTopology
    · simp only [List.mem_cons, List.not_mem_nil, or_false] at inFront
      rcases inFront with rfl | rfl | rfl | rfl
      · exact absurd (last_injective same) (by decide)
      · exact absurd (last_injective same) (by decide)
      · exact absurd (last_injective same) (by decide)
      · exact absurd (last_injective same) (by decide)
    · rcases List.mem_map.mp inTopology with ⟨key, -, rfl⟩
      exact congrArg Op.renew same
  have written (middle : Leases Text Value) :=
    @seen_perform_self _ _ middle self.now term _ (setex (fPresence self.topology) self.fUuid)
      positive
  have split : self.resetTtlOps lastChecked uptime state =
      (self.resetTtlOps lastChecked uptime state).take 1 ++
        (setex (fPresence self.topology) self.fUuid ::
          (self.resetTtlOps lastChecked uptime state).drop 2) := rfl
  have ran : seen (performAll term self.now self.leases
      (self.resetTtlOps lastChecked uptime state)) self.now (fPresence self.topology) =
        some (.string self.fUuid) := by
    rw [split, performAll_append, performAll_cons, seen_performAll_of_renew positive others]
    exact written _
  simpa only [exec] using ran

section

variable (positive : 0 < term) {topology : TopologyConfig} (standard : topology.Standard)
  (noKeys : topology.fRegisteredKeys = []) {fUuid : Text} {fields : List (Text × Text)} {now : Nat}
  {leases : Leases Text Value}

include positive standard noKeys

/-- After an interruption as long as the lifetime nothing that the instance keeps alive is
there any more. Whatever the timer and others do afterwards, the keys of channels and
sub-sockets and the address of the host stay away, while the next turn of the timer makes
the instance present again. -/
theorem lost_after_interruption {before : List InstanceAction}
    (reached : run (step term) (register term topology fUuid fields now leases) before = some self)
    (meets :
      Meets (step term) (InTime term) (register term topology fUuid fields now leases) before)
    {duration : Nat} (long : term ≤ duration) {rest : List InstanceAction}
    (renews : ∀ action ∈ rest, action.Renews) {last : Instance}
    (ran : run (step term) self (.wait duration :: rest) = some last) :
    (∀ key ∈ held self.topology, seen self.leases (self.now + duration) key = none) ∧
      (∀ key ∈ self.topology.fRegisteredKeys, seen last.leases last.now key = none) ∧
      (fieldsOf (seen last.leases last.now (fHealth last.topology))).lookup "hostIp".toList = none ∧
      ∀ lastChecked uptime state next,
        step term last (.resetTtl lastChecked uptime state) = some next →
          seen next.leases next.now (fPresence next.topology) = some (.string next.fUuid) := by
  have leased : Leased term self ∧ self.Alive := by
    apply @run_invariant _ _ _ (InTime term) (fun inst => Leased term inst ∧ inst.Alive)
    · rintro inst action next ⟨leased, alive⟩ inTime stepped
      exact ⟨leased.step alive positive stepped,
        (leased.alive_next_iff alive positive stepped).mpr inTime⟩
    · exact ⟨leased_register positive standard noKeys fUuid fields now leases,
        alive_register positive standard noKeys fUuid fields now leases⟩
    · exact meets
    · exact reached
  have gone {key : Text} (isHeld : key ∈ held self.topology) :
      seen self.leases (self.now + duration) key = none :=
    (leased.1.within key isHeld).seen_eq_none (Nat.add_le_add_left long _)
  rcases (run_cons_eq_some_iff _ _ _ _ _).mp ran with ⟨lapsed, waited, ranRest⟩
  cases waited
  have begins : Lost self.topology.fRegisteredKeys { self with now := self.now + duration } := by
    constructor
    · rfl
    · exact leased.1.own
    · exact fun key isRegistered => seen_eq_none_iff.mp (gone (mem_held_of_registered isRegistered))
    · exact congrArg (fun value => (fieldsOf value).lookup "hostIp".toList) (gone health_mem_held)
  have lost : Lost self.topology.fRegisteredKeys last :=
    run_invariant (fun lost renews stepped => lost.step positive renews stepped) begins
      (meets_of_forall_mem (fun _ action member => renews action member) _) ranRest
  constructor
  · exact fun key isHeld => gone isHeld
  constructor
  · exact fun key isRegistered => seen_eq_none_iff.mpr (lost.registered key isRegistered)
  constructor
  · exact lost.hostIp
  · exact fun lastChecked uptime state next stepped => seen_presence_resetTtl positive stepped

end

/-! ### A sink with the default lifetime -/

/-- A sink with one channel and one peer. -/
def sinkTopology : TopologyConfig :=
  { fTopPrefix := topPrefix, fServiceName := "Sink".toList, fId := "Sink-0".toList }

/-- It is registered, and writes a channel. -/
def sinkStarts : List InstanceAction :=
  [.stateChange "IDLE".toList, .wait 100,
    .writeChannel { name := "in".toList } ["daq_service:Sampler:Sampler-0:channel:out".toList]]

/-- The timer has its turn every three seconds and is late once. -/
def sinkTimer : List InstanceAction :=
  [.wait 2900, .resetTtl "t".toList "3000".toList "IDLE".toList, .wait 4900,
    .resetTtl "t".toList "7900".toList "IDLE".toList, .wait 3000]

theorem sinkTopology_standard : sinkTopology.Standard :=
  ⟨rfl, rfl⟩

theorem always_alive_sink :
    Always (step 5000) Alive
      (register 5000 sinkTopology "u".toList [("hostIp".toList, "10.0.0.2".toList)] 0 fun _ => none)
      (sinkStarts ++ sinkTimer) :=
  (always_alive_iff (by decide) sinkTopology_standard rfl _ _ _ _ _).mpr (by decide +kernel)

/-- The sink is suspended for longer than its lifetime. -/
theorem lost_after_interruption_sink :
    ∃ self last, run (step 5000) (register 5000 sinkTopology "u".toList
          [("hostIp".toList, "10.0.0.2".toList)] 0 fun _ => none) sinkStarts = some self ∧
      run (step 5000) self (.wait 6000 :: sinkTimer) = some last ∧
      (∀ key ∈ held self.topology, seen self.leases (self.now + 6000) key = none) ∧
      (∀ key ∈ self.topology.fRegisteredKeys, seen last.leases last.now key = none) ∧
      (fieldsOf (seen last.leases last.now (fHealth last.topology))).lookup "hostIp".toList = none ∧
      ∀ lastChecked uptime state next,
        step 5000 last (.resetTtl lastChecked uptime state) = some next →
          seen next.leases next.now (fPresence next.topology) = some (.string next.fUuid) := by
  have renews : ∀ action ∈ sinkTimer, action.Renews := by
    intro action member
    simp only [sinkTimer, List.mem_cons, List.not_mem_nil, or_false] at member
    rcases member with rfl | rfl | rfl | rfl | rfl <;> exact trivial
  generalize startEq : register 5000 sinkTopology "u".toList
    [("hostIp".toList, "10.0.0.2".toList)] 0 (fun _ => none) = start
  have meets : Meets (step 5000) (InTime 5000) start sinkStarts := by
    rw [← startEq]
    decide +kernel
  have runs : (run (step 5000) start (sinkStarts ++ .wait 6000 :: sinkTimer)).isSome := by
    rw [← startEq]
    decide +kernel
  rcases Option.isSome_iff_exists.mp runs with ⟨last, ran⟩
  rw [run_append] at ran
  rcases Option.bind_eq_some_iff.mp ran with ⟨self, reached, ranRest⟩
  subst startEq
  exact ⟨self, last, reached, ranRest, lost_after_interruption (by decide) sinkTopology_standard rfl
    reached meets (by decide) renews ranRest⟩

end Instance

end NestDaq.Plugin
