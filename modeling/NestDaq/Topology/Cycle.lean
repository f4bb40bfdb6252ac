import NestDaq.Topology.ConnectConfig
import NestDaq.Transition.Run

/-!
# Cycles of one instance

The operations of `TopologyConfig` in the order in which the state machine of
the device calls them, over any number of cycles: `Initialize`, the steps of
the state `Bound`, and `Reset`. Beside the members, the state holds the
properties of the device and the registry keys that the instance has written.
The registry is given with each operation, since other processes change it in
between, and so are the properties that the transport layer shows.
-/

namespace NestDaq.Topology

open NestDaq.Message
open NestDaq.Store
open NestDaq.Transition
open TopologyConfig

namespace TopologyConfig

variable (config : TopologyConfig) (db : Db)

/-- Read one channel of connect-config. -/
def addOption (child : Text × Hash) : Option TopologyConfig :=
  (connectChannel child.1 child.2).map config.addChannel

/-- Read one endpoint. -/
def addEndpoint (endpoint : Text) : Option TopologyConfig :=
  (config.readEndpointProperty db endpoint).map config.addChannel

/-- Read one link. -/
def recordLink (link : Text) : Option TopologyConfig :=
  (config.readLinkProperty db link).map config.addLink

/-- `Initialize` with the members it leaves. When reading the topology throws,
nothing is published and the members keep what was read until then. -/
def initializeTopology : TopologyConfig × Option (List Configured) :=
  match attempt addOption config config.connectConfig with
  | (config, false) => (config, none)
  | (config, true) =>
      match attempt (addEndpoint · db) config (config.readEndpoints db) with
      | (config, false) => (config, none)
      | (config, true) =>
          match attempt (recordLink · db) config (config.readLinks db) with
          | (config, false) => (config, none)
          | (config, true) =>
              let (config, _, configured) := publishChannels config db config.channelList
              (config, some configured)

/-- Invariant rule for `Initialize`: what reading preserves holds when it throws and
when the channels are published. -/
theorem initializeTopology_rule {config : TopologyConfig} {db : Db}
    {invariant : TopologyConfig → Prop}
    {result : TopologyConfig × Option (List Configured) → Prop}
    (channel : ∀ {config next : TopologyConfig} {read : Option SocketProperty},
      invariant config → read.map config.addChannel = some next → invariant next)
    (link : ∀ {config next : TopologyConfig} {read : Option LinkProperty},
      invariant config → read.map config.addLink = some next → invariant next)
    (thrown : ∀ config, invariant config → result (config, none))
    (published : ∀ config : TopologyConfig, invariant config →
      result ((config.publishChannels db config.channelList).1,
        some (config.publishChannels db config.channelList).2.2))
    (initial : invariant config) : result (config.initializeTopology db) := by
  have options := @attempt_invariant _ _ addOption invariant channel _ initial
    config.connectConfig
  rw [initializeTopology]
  rcases equal : attempt addOption config config.connectConfig with ⟨withOptions, read⟩
  rw [equal] at options
  cases read with
  | false => exact thrown withOptions options
  | true =>
      have endpoints := @attempt_invariant _ _ (addEndpoint · db) invariant channel _ options
        (withOptions.readEndpoints db)
      simp only
      rcases equal : attempt (addEndpoint · db) withOptions (withOptions.readEndpoints db) with
        ⟨withChannels, read⟩
      rw [equal] at endpoints
      cases read with
      | false => exact thrown withChannels endpoints
      | true =>
          have links := @attempt_invariant _ _ (recordLink · db) invariant link _ endpoints
            (withChannels.readLinks db)
          simp only
          rcases equal : attempt (recordLink · db) withChannels (withChannels.readLinks db) with
            ⟨withLinks, read⟩
          rw [equal] at links
          cases read with
          | false => exact thrown withLinks links
          | true => exact published withLinks links

theorem readChannels_eq_foldlM :
    config.readChannels db = (config.connectConfig.foldlM addOption config).bind fun config =>
      (config.readEndpoints db).foldlM (addEndpoint · db) config :=
  rfl

theorem collectLinks_eq_foldlM :
    config.collectLinks db = (config.readLinks db).foldlM (recordLink · db) config :=
  rfl

/-- Without an exception, this is the `Initialize` of the other modules. -/
theorem initializeTopology_of_some {config' : TopologyConfig} {db' : Db}
    {configured : List Configured}
    (initialized : config.initializeChannels db = some (config', db', configured)) :
    config.initializeTopology db = (config', some configured) := by
  simp only [initializeChannels, readChannels_eq_foldlM, collectLinks_eq_foldlM, attempt_eq]
    at initialized
  rw [initializeTopology]
  rcases options : attempt addOption config config.connectConfig with ⟨withOptions, _ | _⟩
  · simp [options] at initialized
  rcases endpoints : attempt (addEndpoint · db) withOptions (withOptions.readEndpoints db) with
    ⟨withChannels, _ | _⟩
  · simp [options, endpoints] at initialized
  rcases links : attempt (recordLink · db) withChannels (withChannels.readLinks db) with
    ⟨withLinks, _ | _⟩
  · simp [options, endpoints, links] at initialized
  simp only [options, endpoints, links, if_true, Option.bind_eq_bind, Option.bind_some,
    Option.pure_def, Option.some.injEq] at initialized
  simp only [endpoints, links, initialized]

/-- `ConfigConnect` changes the connect channels only. -/
theorem configConnect_eq (views : Nat → View) (config : TopologyConfig)
    (children : List (Text × PTree)) (time : Nat) : ∃ channels,
      (configConnect views config children time).1 =
        { config with fConnectChannels := channels } := by
  induction children generalizing config time with
  | nil => exact ⟨config.fConnectChannels, rfl⟩
  | cons child rest ih =>
      rw [configConnect]
      cases configured : config.configChannel views time child with
      | none => exact ⟨config.fConnectChannels, rfl⟩
      | some result =>
          rcases result with ⟨next, option, later⟩
          rw [configChannel, Option.map_eq_some_iff] at configured
          rcases configured with ⟨peer, _, equal⟩
          have same : _ = next := congrArg Prod.fst equal
          rcases ih next later with ⟨channels, rest⟩
          apply Exists.intro channels
          simp only
          rw [rest, ← same]

end TopologyConfig

/-- The options of the device that give the default channel properties. -/
structure ProgramOptions where
  id : Option Text
  configKey : Option Text
  mqConfig : Option Text
  channelConfig : Option (List Text)

/-- What the transport layer provides: its parsers, which may throw, the text of a
property, and the order of `std::unordered_map`. -/
structure Transport (V : Type) where
  suboptParser : List Text → Text → Option (AList fun _ : Text => V)
  jsonParser : Text → Text → Option (AList fun _ : Text => V)
  convertPropertyToString : V → Text
  order : List (Text × Text) → List (Text × Text)
  order_perm : ∀ options, (order options).Perm options

section Properties

variable {V : Type}

/-- The texts of properties. -/
def textsOf (convert : V → Text) (properties : AList fun _ : Text => V) : Properties :=
  (properties.entries.map fun entry => ⟨entry.1, convert entry.2⟩).toAList

/-- The properties whose keys are not default ones. -/
def withoutDefaults (properties : AList fun _ : Text => V) (defaults : Properties) :
    AList fun _ : Text => V :=
  (properties.entries.filter fun entry => entry.1 ∉ defaults).toAList

/-- `InitializeDefaultChannelProperties`. -/
def initializeDefaultChannelProperties (transport : Transport V) (options : ProgramOptions) :
    Properties :=
  let idForParser := (options.configKey.orElse fun _ => options.id).getD []
  if idForParser = [] then ∅
  else
    let parsed :=
      match options.mqConfig, options.channelConfig with
      | some mqConfig, _ => transport.jsonParser mqConfig idForParser
      | none, some channelConfig => transport.suboptParser channelConfig idForParser
      | none, none => none
    (parsed.map (textsOf transport.convertPropertyToString)).getD ∅

end Properties

/-- How far the device is in its cycle. -/
inductive Position where
  | idle
  | initialized
  | bindWritten
  | connected
  | connectWritten
  deriving DecidableEq

/-- The members of `TopologyConfig` with those for the channel properties, the
properties of the device, and the registry keys that the instance has written
and not deleted, and those of them that expire. -/
structure Instance (V : Type) where
  config : TopologyConfig
  fConnectConfig : Option (List (Text × PTree)) := none
  fDefaultChannelProperties : Properties := ∅
  fCustomChannelProperties : Properties := ∅
  properties : AList fun _ : Text => V
  written : List Text := []
  expiring : List Text := []
  position : Position := .idle

/-- An operation with what it finds. -/
inductive Operation where
  | initializeTopology (db : Db)
  | writeBindAddress (properties : Properties)
  | connect (db : Db) (views : Nat → View)
  | writeConnectAddress (properties : Properties)
  | reset (db : Db)

namespace Instance

variable {V : Type} (transport : Transport V) (options : ProgramOptions) (inst : Instance V)

/-- `SetProperties`, with the record that `Reset` uses. -/
def setChannelProperties (properties : AList fun _ : Text => V) : Instance V :=
  { inst with
    fCustomChannelProperties :=
      textsOf transport.convertPropertyToString properties ∪ inst.fCustomChannelProperties
    properties := properties ∪ inst.properties }

/-- The keys that a pipeline creates. -/
def createdKeys (commands : List Command) : List Text :=
  commands.filterMap fun
    | .hset key _ => some key
    | .rpush key _ => some key
    | .expire _ => none

/-- The keys that a pipeline lets expire. -/
def expiredKeys (commands : List Command) : List Text :=
  commands.filterMap fun
    | .expire key => some key
    | _ => none

/-- Execute a pipeline. -/
def exec (commands : List Command) : Instance V :=
  { inst with
    written := inst.written ++ createdKeys commands
    expiring := inst.expiring ++ expiredKeys commands }

/-- Set the properties of each option that `ResolveConnectAddress` made, until the
parser throws. -/
def setOptions (inst : Instance V) : List (Text × Text) → Instance V
  | [] => inst
  | option :: rest =>
      match transport.suboptParser [option.2] inst.config.fServiceName with
      | none => inst
      | some properties => setOptions (inst.setChannelProperties transport properties) rest

/-- The default channel properties, which are collected once. -/
def defaultChannelProperties : Properties :=
  if inst.fDefaultChannelProperties.keys = [] then
    initializeDefaultChannelProperties transport options
  else inst.fDefaultChannelProperties

/-- `Initialize`. -/
def initializeTopology (db : Db) : Instance V :=
  let defaults := inst.defaultChannelProperties transport options
  match inst.config.initializeTopology db with
  | (config, none) => { inst with config := config, fDefaultChannelProperties := defaults }
  | (config, some configured) =>
      let published :=
        { inst with config := config, fDefaultChannelProperties := defaults }.exec
          (configured.flatMap fun record : Configured =>
            inst.config.writeChannel record.sp record.peers)
      match transport.suboptParser (configured.map fun record => toChannelConfig record.sp)
          inst.config.fServiceName with
      | none => published
      | some properties =>
          published.setChannelProperties transport (withoutDefaults properties defaults)

/-- `WriteBindAddress`. -/
def writeBindAddress (properties : Properties) : Instance V :=
  { inst with
    config :=
      { inst.config with
        fRegisteredKeys := inst.config.fRegisteredKeys ++
          inst.config.addressKeys properties inst.config.fBindChannels } }.exec
    (inst.config.writeBindAddress properties)

/-- `WriteConnectAddress`. -/
def writeConnectAddress (properties : Properties) : Instance V :=
  { inst with
    config :=
      { inst.config with
        fRegisteredKeys := inst.config.fRegisteredKeys ++
          inst.config.addressKeys properties inst.config.fConnectChannels } }.exec
    (inst.config.writeConnectAddress properties)

/-- `ConfigConnect` when the option is given, else `ResolveConnectAddress`. -/
def connect (db : Db) (views : Nat → View) : Instance V :=
  match inst.fConnectConfig with
  | some children =>
      match configConnect views inst.config children 0 with
      | (config, none) => { inst with config := config }
      | (config, some []) => { inst with config := config }
      | (config, some channelConfigOptions) =>
          match transport.suboptParser channelConfigOptions inst.config.fServiceName with
          | none => { inst with config := config }
          | some properties =>
              { inst with config := config }.setChannelProperties transport properties
  | none =>
      match inst.config.connectOptions db with
      | .error _ => inst
      | .ok channelOptions => inst.setOptions transport (transport.order channelOptions)

/-- `Reset`. -/
def reset (db : Db) : Instance V :=
  { inst with
    config := (inst.config.reset db).1
    fCustomChannelProperties := ∅
    properties := inst.fCustomChannelProperties.keys.foldl (fun properties key =>
      properties.erase key) inst.properties
    written := inst.written.filter (· ∉ inst.config.fRegisteredKeys)
    expiring := inst.expiring.filter (· ∉ inst.config.fRegisteredKeys) }

/-- The operations in the order of the state machine. -/
def step (inst : Instance V) (operation : Operation) : Option (Instance V) :=
  match operation, inst.position with
  | .initializeTopology db, .idle =>
      some { inst.initializeTopology transport options db with position := .initialized }
  | .writeBindAddress properties, .initialized =>
      some { inst.writeBindAddress properties with position := .bindWritten }
  | .connect db views, .bindWritten =>
      some { inst.connect transport db views with position := .connected }
  | .writeConnectAddress properties, .connected =>
      some { inst.writeConnectAddress properties with position := .connectWritten }
  | .reset _, .idle => none
  | .reset db, _ => some { inst.reset db with position := .idle }
  | _, _ => none

theorem setOptions_eq {V : Type} (transport : Transport V) (inst : Instance V)
    (channelOptions : List (Text × Text)) : ∃ custom properties,
      inst.setOptions transport channelOptions =
        { inst with fCustomChannelProperties := custom, properties := properties } := by
  induction channelOptions generalizing inst with
  | nil => exact ⟨_, _, rfl⟩
  | cons option rest ih =>
      rw [setOptions]
      split
      · exact ⟨_, _, rfl⟩
      · rename_i parsed _
        rcases ih (inst.setChannelProperties transport parsed) with ⟨custom, properties, equal⟩
        exact ⟨custom, properties, equal⟩

/-- Connecting changes the connect channels and the properties. -/
theorem connect_eq {V : Type} (transport : Transport V) (inst : Instance V) (db : Db)
    (views : Nat → View) : ∃ channels custom properties,
      inst.connect transport db views =
        { inst with
          config := { inst.config with fConnectChannels := channels }
          fCustomChannelProperties := custom
          properties := properties } := by
  unfold connect
  split
  · rename_i children _
    rcases configConnect_eq views inst.config children 0 with ⟨channels, same⟩
    split
    · rename_i equal
      rw [equal] at same
      subst same
      exact ⟨channels, _, _, rfl⟩
    · rename_i equal
      rw [equal] at same
      subst same
      exact ⟨channels, _, _, rfl⟩
    · rename_i equal
      rw [equal] at same
      subst same
      split
      · exact ⟨channels, _, _, rfl⟩
      · exact ⟨channels, _, _, rfl⟩
  · split
    · exact ⟨inst.config.fConnectChannels, _, _, rfl⟩
    · rename_i channelOptions _
      rcases inst.setOptions_eq transport (transport.order channelOptions) with
        ⟨custom, properties, equal⟩
      exact ⟨inst.config.fConnectChannels, custom, properties, equal⟩

end Instance

end NestDaq.Topology
