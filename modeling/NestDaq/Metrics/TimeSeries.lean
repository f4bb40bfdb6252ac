import NestDaq.Metrics.Flush
import NestDaq.Metrics.SocketProperties
import NestDaq.Plugin.State

/-!
# Time series of the sockets

Each number in a line belongs into a time series of its own. The keys of the series of
a sub-channel are made by `CreateSocketTS` on a transition to Running, if the series are
to be created again then. A line looks its keys up, and where none were made it gets
empty ones.
-/

namespace NestDaq.Metrics

open NestDaq.Plugin (DeviceState DeviceStateTransition)
open NestDaq.Store
open NestDaq.Topology
open NestDaq.Transition

/-- `boost::replace_all_copy`; the number is that of characters already replaced. -/
def replaceFrom (search format : Text) : Nat → Text → Text
  | _, [] => []
  | skip + 1, _ :: rest => replaceFrom search format skip rest
  | 0, char :: rest =>
      if search ≠ [] ∧ search <+: char :: rest then
        format ++ replaceFrom search format (search.length - 1) rest
      else char :: replaceFrom search format 0 rest

/-- `ReplaceAll`. -/
def replaceAll (input : SocketMetricsKey) (search format : Text) : SocketMetricsKey where
  msgIn := replaceFrom search format 0 input.msgIn
  bytesIn := replaceFrom search format 0 input.bytesIn
  msgOut := replaceFrom search format 0 input.msgOut
  bytesOut := replaceFrom search format 0 input.bytesOut

/-- `Prepend`. -/
def prepend (input : SocketMetricsKey) (s separator : Text) : SocketMetricsKey where
  msgIn := Text.join [s, input.msgIn] separator
  bytesIn := Text.join [s, input.bytesIn] separator
  msgOut := Text.join [s, input.msgOut] separator
  bytesOut := Text.join [s, input.bytesOut] separator

/-- The keys that `CreateSocketTS` makes for a sub-channel. -/
def socketTsKey (fId name : Text) : SocketMetricsKey :=
  prepend (replaceAll fSockKey (metricsPrefix ++ Registry.colon) [])
    (Text.join ["ts".toList, fId, name] Registry.colon) Registry.colon

/-- The keys of the sums. -/
def socketTsSumKey (fId name : Text) : SocketMetricsKey :=
  append (socketTsKey fId name) "sum".toList ['-']

/-- The series of one direction that `CreateSocketTS` creates. -/
def socketSeries (tsKey : SocketMetricsKey) (direction : Direction) : List Text :=
  let keys := tsKey.of direction
  [keys.1, keys.2, Text.join [keys.1, "sum".toList] ['-'], Text.join [keys.2, "sum".toList] ['-']]

/-- What is measured for a sub-channel. -/
inductive Metric
  | msgIn
  | bytesIn
  | msgOut
  | bytesOut
  deriving DecidableEq

def Metric.text : Metric → Text
  | .msgIn => "msg-in".toList
  | .bytesIn => "mb-in".toList
  | .msgOut => "msg-out".toList
  | .bytesOut => "mb-out".toList

/-- The numbers of a direction, and whether they are sums, in the order of the commands. -/
def Direction.metrics : Direction → List (Metric × Bool)
  | .input => [(.msgIn, false), (.bytesIn, false), (.msgIn, true), (.bytesIn, true)]
  | .output => [(.msgOut, false), (.bytesOut, false), (.msgOut, true), (.bytesOut, true)]

/-- The numbers that a line queues. -/
def lineMetrics (socketType : Text) : List (Metric × Bool) :=
  (if hasInput socketType then Direction.metrics .input else []) ++
    if hasOutput socketType then Direction.metrics .output else []

/-- `ts:<id>:<sub-channel>:<metric>`, followed by `-sum` for a sum. -/
def seriesKey (fId channel : Text) (metric : Metric × Bool) : Text :=
  Text.join ["ts".toList, fId, channel, metric.1.text] Registry.colon ++
    if metric.2 then "-sum".toList else []

/-- A number of a sub-channel, with the key of the series that it is added to. -/
structure Sample where
  channel : Text
  metric : Metric × Bool
  key : Text
  deriving DecidableEq

/-- The keys of the commands that add to a series. -/
def tsAddKeys (commands : List Queued) : List Text :=
  commands.filterMap fun command =>
    match command with
    | .tsAdd key _ => some key
    | .hset .. => none

/-! ## The plugin in a device -/

/-- The plugin with its socket properties, in a device. The last two fields only
observe: the sub-channels that keys have been made for, and the numbers that have been
added to series. -/
structure Monitor (D : Type) where
  plugin : MetricsPlugin D
  fSocketProperties : SocketProperties := ∅
  fRegisteredTSKeys : List Text := []
  state : DeviceState := .idle
  created : List Text := []
  samples : List Sample := []

/-- A transition of the device, a state that it leaves by itself, or a line that it logs,
with its properties at that time. -/
inductive Event (D : Type)
  | transition (transition : DeviceStateTransition) (properties : Properties)
  | automatic (properties : Properties)
  | line (content : Text) (properties : Properties) (process : ProcessReading D)

/-- `IsRecreateTS`. -/
def isRecreateTS (properties : Properties) : Bool :=
  match properties.lookup "recreate-ts".toList with
  | some f => parseFlag f
  | none => false

/-- The number of a state. -/
def stateId : DeviceState → Nat
  | .error => 2
  | .idle => 3
  | .initializingDevice => 4
  | .initialized => 5
  | .binding => 6
  | .bound => 7
  | .connecting => 8
  | .deviceReady => 9
  | .initializingTask => 10
  | .ready => 11
  | .running => 12
  | .resettingTask => 13
  | .resettingDevice => 14
  | .exiting => 15

section Plugin

variable {D : Type} (doubles : Doubles D)

/-- The state is written, and what was queued is discarded. -/
def MetricsPlugin.writeState (plugin : MetricsPlugin D) (newState : DeviceState) :
    MetricsPlugin D :=
  { plugin with
    fPipe := [.hset fStateKey plugin.fId newState.name,
      .hset fProcKey.stateId plugin.fId (Text.decimal (stateId newState))] }.exec

namespace Monitor

variable (monitor : Monitor D)

/-- `CreateTimeseries`. -/
def createTimeseries (key : Text) : Monitor D :=
  { monitor with fRegisteredTSKeys := monitor.fRegisteredTSKeys.insert key }

/-- `CreateSocketTS` for one socket. -/
def createSocket (name : Text) (property : SocketProperty) : Monitor D :=
  let series (direction : Direction) := socketSeries (socketTsKey monitor.plugin.fId name) direction
  if hasInput property.type || hasOutput property.type then
    ((if hasInput property.type then series .input else []) ++
        if hasOutput property.type then series .output else []).foldl createTimeseries
      { monitor with
        plugin :=
          { monitor.plugin with
            fTsSockKey :=
              monitor.plugin.fTsSockKey.insert name (socketTsKey monitor.plugin.fId name)
            fTsSockSumKey :=
              monitor.plugin.fTsSockSumKey.insert name (socketTsSumKey monitor.plugin.fId name) }
        created := name :: monitor.created }
  else monitor

/-- `CreateSocketTS`. -/
def createSocketTS : Monitor D :=
  monitor.fSocketProperties.entries.foldl
    (fun monitor entry => monitor.createSocket entry.1 entry.2) monitor

/-- The callback for a new state of the device; `none` when reading the properties
throws. -/
def onStateChange (newState : DeviceState) (properties : Properties) : Option (Monitor D) :=
  let monitor := { monitor with plugin := monitor.plugin.writeState newState, state := newState }
  match newState with
  | .deviceReady =>
      (initializeSocketProperties properties).map fun fSocketProperties =>
        { monitor with fSocketProperties := fSocketProperties }
  | .ready =>
      some { monitor with
        plugin := { monitor.plugin with fSocketMetrics := ∅, fNumChannels := ∅ }
        fRegisteredTSKeys := if isRecreateTS properties then [] else monitor.fRegisteredTSKeys }
  | .running =>
      some (if isRecreateTS properties then
        (((monitor.createTimeseries monitor.plugin.fTsProcKey.cpu).createTimeseries
          monitor.plugin.fTsProcKey.ram).createTimeseries
            monitor.plugin.fTsProcKey.stateId).createSocketTS
      else monitor)
  | _ => some monitor

/-- The numbers that a line adds to series. -/
def issued (content : Text) (properties : Properties) : List Sample :=
  match reportOf doubles content with
  | none => []
  | some (line, now) =>
      match properties.lookup line.socketTypeKey with
      | none => []
      | some socketType =>
          let queued := ((monitor.plugin.addMetrics doubles line.name now).queueLine doubles
            line.name
            socketType now).fPipe.drop monitor.plugin.fPipe.length
          ((lineMetrics socketType).zip (tsAddKeys queued)).map fun entry =>
            ⟨line.name, entry.1, entry.2⟩

/-- A line of a running device. An exception leaves the plugin as it is. -/
def onLine (content : Text) (properties : Properties) (process : ProcessReading D) : Monitor D :=
  { monitor with
    plugin := (monitor.plugin.sendSocketMetrics doubles content properties.lookup process).getD
      monitor.plugin
    samples := monitor.samples ++ monitor.issued doubles content properties }

end Monitor

/-- One event. Lines are logged while the device is running. -/
def observe : Step (Monitor D) (Event D) :=
  fun monitor event =>
    match event with
    | .transition transition properties =>
        (monitor.state.after transition).bind fun newState =>
          monitor.onStateChange newState properties
    | .automatic properties =>
        monitor.state.automatic.bind fun newState => monitor.onStateChange newState properties
    | .line content properties process =>
        if monitor.state = .running then some (monitor.onLine doubles content properties process)
        else none

end Plugin

theorem socketTsKey_eq (fId name : Text) :
    socketTsKey fId name =
      ⟨seriesKey fId name (.msgIn, false), seriesKey fId name (.bytesIn, false),
        seriesKey fId name (.msgOut, false), seriesKey fId name (.bytesOut, false)⟩ := by
  have names : replaceAll fSockKey (metricsPrefix ++ Registry.colon) [] =
      ⟨Metric.text .msgIn, Metric.text .bytesIn, Metric.text .msgOut, Metric.text .bytesOut⟩ := by
    decide +kernel
  rw [socketTsKey, names]
  simp [prepend, seriesKey]

theorem socketTsSumKey_eq (fId name : Text) :
    socketTsSumKey fId name =
      ⟨seriesKey fId name (.msgIn, true), seriesKey fId name (.bytesIn, true),
        seriesKey fId name (.msgOut, true), seriesKey fId name (.bytesOut, true)⟩ := by
  rw [socketTsSumKey, socketTsKey_eq]
  simp [append, seriesKey]

/-- What is measured, and what is a sum, can be read off the key. -/
theorem seriesKey_injective {fId channel other : Text} {metric otherMetric : Metric × Bool}
    (same : seriesKey fId channel metric = seriesKey fId other otherMetric) :
    channel = other ∧ metric = otherMetric := by
  let name (metric : Metric × Bool) : Text :=
    metric.1.text ++ if metric.2 then "-sum".toList else []
  let all : List (Metric × Bool) := Direction.metrics .input ++ Direction.metrics .output
  have mem_all (metric : Metric × Bool) : metric ∈ all := by
    rcases metric with ⟨metric, isSum⟩
    cases metric <;> cases isSum <;> decide
  have colonFree : ∀ metric ∈ all, ':' ∉ name metric := by decide +kernel
  have names : ∀ first ∈ all, ∀ second ∈ all, name first = name second → first = second := by
    decide +kernel
  have key (channel : Text) (metric : Metric × Bool) : seriesKey fId channel metric =
      (Text.join ["ts".toList, fId] Registry.colon ++ ':' :: channel) ++ ':' :: name metric := by
    simp [seriesKey, Registry.colon, name]
  rw [key, key] at same
  rcases Text.append_separator_inj_last (colonFree metric (mem_all _))
    (colonFree otherMetric (mem_all _)) same with ⟨fronts, metrics⟩
  constructor
  · exact List.cons_inj_right _ |>.mp (List.append_cancel_left fronts)
  · exact names metric (mem_all _) otherMetric (mem_all _) metrics

theorem seriesKey_ne_nil (fId channel : Text) (metric : Metric × Bool) :
    seriesKey fId channel metric ≠ [] := by
  simp [seriesKey]

/-- Every line queues a number. -/
theorem lineMetrics_ne_nil (socketType : Text) : lineMetrics socketType ≠ [] := by
  have direction := hasInput_or_hasOutput socketType
  rw [Bool.or_eq_true] at direction
  rcases direction with input | output
  · simp [lineMetrics, input, Direction.metrics]
  · simp [lineMetrics, output, Direction.metrics]

/-- The empty keys that a lookup puts into a map. -/
def noKeys : SocketMetricsKey :=
  ⟨[], [], [], []⟩

variable {D : Type} {doubles : Doubles D}

/-- The plugin has the keys of the sub-channels that they have been made for, and no
others. -/
structure Filed (fId : Text) (created : List Text) (plugin : MetricsPlugin D) : Prop where
  id : plugin.fId = fId
  keys : ∀ name, (plugin.fTsSockKey.lookup name).getD noKeys =
    if name ∈ created then socketTsKey fId name else noKeys
  sumKeys : ∀ name, (plugin.fTsSockSumKey.lookup name).getD noKeys =
    if name ∈ created then socketTsSumKey fId name else noKeys

/-- `operator[]` finds empty keys where there were none, and makes no difference for later
lookups. -/
theorem keyAt_spec (map : AList fun _ : Text => SocketMetricsKey) (name : Text) :
    (keyAt map name).2 = (map.lookup name).getD noKeys ∧
      ∀ other, ((keyAt map name).1.lookup other).getD noKeys = (map.lookup other).getD noKeys := by
  rw [keyAt]
  cases found : map.lookup name with
  | some key => exact ⟨rfl, fun _ => rfl⟩
  | none =>
      apply And.intro rfl
      intro other
      by_cases same : other = name
      · subst same
        rw [AList.lookup_insert, found]
        rfl
      · rw [AList.lookup_insert_ne same]

section Filed

variable {fId : Text} {created : List Text} {plugin : MetricsPlugin D}

theorem Filed.queueLine (filed : Filed fId created plugin) (name socketType : Text)
    (now : SocketMetrics D) : Filed fId created (plugin.queueLine doubles name socketType now) where
  id := filed.id
  keys other := ((keyAt_spec plugin.fTsSockKey name).2 other).trans (filed.keys other)
  sumKeys other := ((keyAt_spec plugin.fTsSockSumKey name).2 other).trans (filed.sumKeys other)

theorem Filed.countChannel (filed : Filed fId created plugin) (name : Text)
    (process : ProcessReading D) :
    Filed fId created (plugin.countChannel doubles name process) := by
  unfold MetricsPlugin.countChannel
  extract_lets fNumChannels countAll
  split
  · exact ⟨filed.id, filed.keys, filed.sumKeys⟩
  · exact ⟨filed.id, filed.keys, filed.sumKeys⟩

/-- A line leaves the keys as they are. -/
theorem Filed.sendSocketMetrics (filed : Filed fId created plugin) (content : Text)
    (property : Text → Option Text) (process : ProcessReading D) :
    Filed fId created ((plugin.sendSocketMetrics doubles content property process).getD
      plugin) := by
  rw [getD_sendSocketMetrics]
  split
  · exact filed
  · rename_i line now _
    have added : Filed fId created (plugin.addMetrics doubles line.name now) :=
      ⟨filed.id, filed.keys, filed.sumKeys⟩
    cases typed : property line.socketTypeKey with
    | none =>
        rw [report_of_none typed]
        exact added
    | some socketType =>
        rw [report_of_some typed]
        exact (added.queueLine line.name socketType now).countChannel line.name process

/-- Keys are made for a sub-channel. -/
theorem Filed.insert (filed : Filed fId created plugin) (name : Text) :
    Filed fId (name :: created)
      { plugin with
        fTsSockKey := plugin.fTsSockKey.insert name (socketTsKey plugin.fId name)
        fTsSockSumKey := plugin.fTsSockSumKey.insert name (socketTsSumKey plugin.fId name) } := by
  constructor
  · exact filed.id
  · intro other
    by_cases same : other = name
    · subst same
      simp [filed.id]
    · simp [AList.lookup_insert_ne same, filed.keys, same]
  · intro other
    by_cases same : other = name
    · subst same
      simp [filed.id]
    · simp [AList.lookup_insert_ne same, filed.sumKeys, same]

end Filed

namespace Monitor

variable {monitor next : Monitor D} {fId : Text}

theorem foldl_createTimeseries (monitor : Monitor D) (keys : List Text) :
    ∃ registered, keys.foldl createTimeseries monitor =
      { monitor with fRegisteredTSKeys := registered } := by
  induction keys generalizing monitor with
  | nil => exact ⟨_, rfl⟩
  | cons key keys ih =>
      rcases ih (monitor.createTimeseries key) with ⟨registered, equal⟩
      exact ⟨registered, equal⟩

/-- The keys of one sub-channel are made. -/
theorem filed_createSocket (filed : Filed fId monitor.created monitor.plugin) (name : Text)
    (property : SocketProperty) :
    Filed fId (monitor.createSocket name property).created
        (monitor.createSocket name property).plugin ∧
      (monitor.createSocket name property).samples = monitor.samples := by
  rw [createSocket]
  split
  · rcases foldl_createTimeseries _ _ with ⟨registered, equal⟩
    rw [equal]
    exact ⟨filed.insert name, rfl⟩
  · exact ⟨filed, rfl⟩

/-- `CreateSocketTS` makes keys and adds no number. -/
theorem filed_createSocketTS (filed : Filed fId monitor.created monitor.plugin) :
    Filed fId monitor.createSocketTS.created monitor.createSocketTS.plugin ∧
      monitor.createSocketTS.samples = monitor.samples := by
  rw [createSocketTS]
  generalize monitor.fSocketProperties.entries = entries
  induction entries generalizing monitor with
  | nil => exact ⟨filed, rfl⟩
  | cons entry entries ih =>
      rcases filed_createSocket filed entry.1 entry.2 with ⟨first, samples⟩
      rcases ih first with ⟨rest, sameSamples⟩
      exact ⟨rest, sameSamples.trans samples⟩

/-- A new state keeps what is known of the keys, and adds no number. -/
theorem filed_onStateChange (filed : Filed fId monitor.created monitor.plugin)
    {newState : DeviceState} {properties : Properties}
    (changed : monitor.onStateChange newState properties = some next) :
    Filed fId next.created next.plugin ∧ next.samples = monitor.samples := by
  have written : Filed fId monitor.created (monitor.plugin.writeState newState) :=
    ⟨filed.id, filed.keys, filed.sumKeys⟩
  unfold onStateChange at changed
  split at changed
  · rcases Option.map_eq_some_iff.mp changed with ⟨fSocketProperties, _, rfl⟩
    exact ⟨written, rfl⟩
  · cases changed
    exact ⟨⟨written.id, written.keys, written.sumKeys⟩, rfl⟩
  · split_ifs at changed with recreates
    · cases changed
      exact filed_createSocketTS written
    · cases changed
      exact ⟨written, rfl⟩
  · cases changed
    exact ⟨written, rfl⟩

/-- An event brings a new state, or it is a line of a running device. -/
theorem observe_cases {event : Event D} (stepped : observe doubles monitor event = some next) :
    (∃ newState properties, monitor.onStateChange newState properties = some next ∧
        ∀ content properties process, event ≠ .line content properties process) ∨
      ∃ content properties process, event = .line content properties process ∧
        monitor.state = .running ∧ next = monitor.onLine doubles content properties process := by
  cases event with
  | transition transition properties =>
      rcases Option.bind_eq_some_iff.mp stepped with ⟨newState, _, changed⟩
      exact Or.inl ⟨newState, properties, changed, nofun⟩
  | automatic properties =>
      rcases Option.bind_eq_some_iff.mp stepped with ⟨newState, _, changed⟩
      exact Or.inl ⟨newState, properties, changed, nofun⟩
  | line content properties process =>
      rcases Option.ite_none_right_eq_some.mp stepped with ⟨running, equal⟩
      exact Or.inr ⟨content, properties, process, rfl, running, (Option.some.inj equal).symm⟩

/-- The keys of the plugin are known along a run. -/
theorem filed_observe {event : Event D} (filed : Filed fId monitor.created monitor.plugin)
    (stepped : observe doubles monitor event = some next) :
    Filed fId next.created next.plugin := by
  rcases observe_cases stepped with
    ⟨newState, properties, changed, _⟩ | ⟨content, properties, process, _, _, rfl⟩
  · exact (filed_onStateChange filed changed).1
  · exact filed.sendSocketMetrics content properties.lookup process

/-- The keys of the numbers of a direction, where keys have been made or not. -/
theorem directionKeys_eq (made : Prop) [Decidable made] (fId name : Text) (direction : Direction) :
    let tsKey := if made then socketTsKey fId name else noKeys
    let tsSumKey := if made then socketTsSumKey fId name else noKeys
    [(tsKey.of direction).1, (tsKey.of direction).2, (tsSumKey.of direction).1,
        (tsSumKey.of direction).2] =
      direction.metrics.map fun metric => if made then seriesKey fId name metric else [] := by
  rw [socketTsKey_eq, socketTsSumKey_eq]
  by_cases isMade : made
  · simp only [if_pos isMade]
    cases direction <;> rfl
  · simp only [if_neg isMade]
    cases direction <;> rfl

/-- A line adds all its numbers to their own series, or all to the series without a
name. -/
theorem issued_eq (filed : Filed fId monitor.created monitor.plugin) {content : Text}
    {properties : Properties} {line : Line} {now : SocketMetrics D}
    (found : reportOf doubles content = some (line, now)) {socketType : Text}
    (typed : properties.lookup line.socketTypeKey = some socketType) :
    monitor.issued doubles content properties =
      (lineMetrics socketType).map fun metric =>
        ⟨line.name, metric,
          if line.name ∈ monitor.created then seriesKey fId line.name metric else []⟩ := by
  have keys : tsAddKeys (((monitor.plugin.addMetrics doubles line.name now).queueLine doubles
      line.name socketType now).fPipe.drop monitor.plugin.fPipe.length) =
        (lineMetrics socketType).map fun metric =>
          if line.name ∈ monitor.created then seriesKey fId line.name metric else [] := by
    have tsKey := (keyAt_spec monitor.plugin.fTsSockKey line.name).1.trans (filed.keys line.name)
    have tsSumKey :=
      (keyAt_spec monitor.plugin.fTsSockSumKey line.name).1.trans (filed.sumKeys line.name)
    have direction := directionKeys_eq (line.name ∈ monitor.created) fId line.name
    simp only [MetricsPlugin.queueLine, MetricsPlugin.addMetrics, tsKey, tsSumKey,
      List.append_assoc, List.drop_left]
    rw [lineMetrics, List.map_append, tsAddKeys, List.filterMap_append]
    congr 1
    · split
      · exact direction .input
      · rfl
    · split
      · exact direction .output
      · rfl
  simp only [issued, found, typed, keys]
  rw [← List.map_prod_left_eq_zip, List.map_map]
  rfl

/-! ## Series of their own -/

/-- Each number is in the series of its sub-channel and its metric, so that no two
sub-channels and no two metrics share a series. -/
structure InOwnSeries (fId : Text) (monitor : Monitor D) : Prop where
  key : ∀ sample ∈ monitor.samples, sample.key = seriesKey fId sample.channel sample.metric
  separate : ∀ first ∈ monitor.samples, ∀ second ∈ monitor.samples, first.key = second.key →
    first.channel = second.channel ∧ first.metric = second.metric

theorem inOwnSeries_iff :
    InOwnSeries fId monitor ↔
      ∀ sample ∈ monitor.samples, sample.key = seriesKey fId sample.channel sample.metric := by
  constructor
  · exact InOwnSeries.key
  · intro key
    constructor
    · exact key
    · intro first firstMember second secondMember same
      rw [key first firstMember, key second secondMember] at same
      exact seriesKey_injective same

/-- The sub-channel of a line with a type has been among the socket properties on an
earlier transition to Running on which the series were created. -/
def KeysMade (doubles : Doubles D) (monitor : Monitor D) : Event D → Prop
  | .line content properties _ =>
      monitor.state = .running → ∀ line now, reportOf doubles content = some (line, now) →
        (properties.lookup line.socketTypeKey).isSome → line.name ∈ monitor.created
  | _ => True

/-- Where all numbers are in their own series, a line keeps this exactly if the keys of its
sub-channel have been made. -/
theorem inOwnSeries_onLine_iff (filed : Filed fId monitor.created monitor.plugin)
    (own : InOwnSeries fId monitor) (running : monitor.state = .running) (content : Text)
    (properties : Properties) (process : ProcessReading D) :
    InOwnSeries fId (monitor.onLine doubles content properties process) ↔
      KeysMade doubles monitor (.line content properties process) := by
  have samples : InOwnSeries fId (monitor.onLine doubles content properties process) ↔
      ∀ sample ∈ monitor.issued doubles content properties,
        sample.key = seriesKey fId sample.channel sample.metric := by
    rw [inOwnSeries_iff, onLine, List.forall_mem_append]
    exact and_iff_right own.key
  rw [samples]
  cases found : reportOf doubles content with
  | none =>
      apply iff_of_true
      · simp [issued, found]
      · intro _ line now same
        cases found.symm.trans same
  | some report =>
      rcases report with ⟨line, now⟩
      cases typed : properties.lookup line.socketTypeKey with
      | none =>
          apply iff_of_true
          · simp [issued, found, typed]
          · intro _ other otherNow same isTyped
            cases found.symm.trans same
            rw [typed] at isTyped
            cases isTyped
      | some socketType =>
          rw [issued_eq filed found typed, List.forall_mem_map]
          constructor
          · intro keys _ other otherNow same _
            cases found.symm.trans same
            by_contra notMade
            rcases List.exists_mem_of_ne_nil _ (lineMetrics_ne_nil socketType) with
              ⟨metric, member⟩
            have key := keys metric member
            rw [if_neg notMade] at key
            exact seriesKey_ne_nil _ _ _ key.symm
          · intro made metric _
            exact if_pos (made running line now found (typed ▸ rfl))

/-- One event leads to a state with all numbers in their own series exactly if the keys for
it have been made. -/
theorem inOwnSeries_observe_iff {event : Event D}
    (filed : Filed fId monitor.created monitor.plugin) (own : InOwnSeries fId monitor)
    (stepped : observe doubles monitor event = some next) :
    InOwnSeries fId next ↔ KeysMade doubles monitor event := by
  rcases observe_cases stepped with
    ⟨newState, properties, changed, noLine⟩ | ⟨content, properties, process, rfl, running, rfl⟩
  · apply iff_of_true
    · rw [inOwnSeries_iff, (filed_onStateChange filed changed).2]
      exact own.key
    · cases event with
      | transition transition properties => trivial
      | automatic properties => trivial
      | line content properties process => exact absurd rfl (noLine content properties process)
  · exact inOwnSeries_onLine_iff filed own running content properties process

/-- The plugin after its constructor, with an idle device. -/
def started (fId : Text) (fTsProcKey : ProcessStatKey) : Monitor D where
  plugin := (Metrics.started fId fTsProcKey).plugin

/-- In every run, all numbers are in their own series if and only if whenever a running
device logs a line of a sub-channel with a type, the sub-channel was among the socket
properties on an earlier transition to Running with `recreate-ts`. -/
theorem always_inOwnSeries_iff (doubles : Doubles D) (fId : Text) (fTsProcKey : ProcessStatKey)
    (events : List (Event D)) :
    Always (observe doubles) (InOwnSeries fId) (started fId fTsProcKey) events ↔
      Meets (observe doubles) (KeysMade doubles) (started fId fTsProcKey) events := by
  apply always_iff_meets (fun filed _ => filed_observe filed) inOwnSeries_observe_iff
  · intro monitor event refused
    cases event with
    | transition transition properties => trivial
    | automatic properties => trivial
    | line content properties process =>
        intro running
        rw [observe, if_pos running] at refused
        cases refused
  · constructor
    · rfl
    · exact fun _ => rfl
    · exact fun _ => rfl
  · constructor
    · nofun
    · nofun

/-- The properties of a device with one output channel. -/
def pushProperties : Properties :=
  ((∅ : Properties).insert "recreate-ts".toList "false".toList).insert "chans.out.0.type".toList
    "push".toList

/-- The device runs and logs one line. -/
def pushEvents : List (Event Nat) :=
  [.transition .initDevice pushProperties, .transition .completeInit pushProperties,
    .transition .bind pushProperties, .automatic pushProperties,
    .transition .connect pushProperties, .automatic pushProperties,
    .transition .initTask pushProperties, .automatic pushProperties,
    .transition .run pushProperties, .line (lineOf "out") pushProperties idleProcess]

/-- Without `recreate-ts` all numbers share the series without a name. -/
theorem push_shares_series :
    ¬ ∀ (doubles : Doubles Nat) (fId : Text) (fTsProcKey : ProcessStatKey)
      (events : List (Event Nat)),
        Always (observe doubles) (InOwnSeries fId) (started fId fTsProcKey) events := by
  intro separates
  have always := separates naturals [] ⟨[], [], []⟩ pushEvents
  rw [always_iff_forall_reached] at always
  have own := always pushEvents List.prefix_rfl
  have unnamed : (run (observe naturals) (started [] ⟨[], [], []⟩) pushEvents).any
      (fun last => decide (∃ sample ∈ last.samples, sample.key = [])) = true := by
    decide +kernel
  rcases (Option.any_eq_true _ _).mp unnamed with ⟨last, reached, some⟩
  rcases of_decide_eq_true some with ⟨sample, member, empty⟩
  exact seriesKey_ne_nil _ _ _ (((own last reached).key sample member).symm.trans empty)

end Monitor

end NestDaq.Metrics
