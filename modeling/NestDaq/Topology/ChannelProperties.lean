import NestDaq.Topology.Cycle

/-!
# Channel properties of the command line

`Reset` deletes the channel properties that the instance recorded when it set
them. As long as none of these is a default property, and none was there before
the first `Initialize`, the defaults keep their values and every `Reset` leaves
the properties as they were at the start. `Initialize` leaves the defaults out
of what it sets; `ResolveConnectAddress` and `ConfigConnect` do not.
-/

namespace NestDaq.Topology

open NestDaq.Registry
open NestDaq.Store
open NestDaq.Transition
open TopologyConfig

section Maps

variable {V : Type} {key : Text}

theorem mem_toAList {items : List (Sigma fun _ : Text => V)} :
    key ∈ items.toAList ↔ key ∈ items.keys := by
  rw [← AList.lookup_isSome, AList.lookup_to_alist, List.dlookup_isSome]

theorem mem_textsOf {convert : V → Text} {properties : AList fun _ : Text => V} :
    key ∈ textsOf convert properties ↔ key ∈ properties := by
  rw [textsOf, mem_toAList, AList.mem_keys]
  simp [List.keys, AList.keys]

theorem mem_withoutDefaults {properties : AList fun _ : Text => V} {defaults : Properties} :
    key ∈ withoutDefaults properties defaults ↔ key ∈ properties ∧ key ∉ defaults := by
  rw [withoutDefaults, mem_toAList, AList.mem_keys]
  simp only [List.keys, AList.keys, List.mem_map, List.mem_filter, decide_eq_true_eq]
  constructor
  · rintro ⟨entry, ⟨member, other⟩, rfl⟩
    exact ⟨⟨entry, member, rfl⟩, other⟩
  · rintro ⟨⟨entry, member, rfl⟩, other⟩
    exact ⟨entry, ⟨member, other⟩, rfl⟩

/-- `DeleteProperty` for each of some keys. -/
theorem lookup_foldl_erase (keys : List Text) (properties : AList fun _ : Text => V) :
    (keys.foldl (fun properties key => properties.erase key) properties).lookup key =
      if key ∈ keys then none else properties.lookup key := by
  induction keys generalizing properties with
  | nil => simp
  | cons first rest ih =>
      rw [List.foldl_cons, ih]
      by_cases inRest : key ∈ rest
      · simp [inRest]
      · by_cases same : key = first
        · subst same
          simp [inRest]
        · simp [inRest, same, AList.lookup_erase_ne same]

end Maps

namespace Instance

variable {V : Type} {transport : Transport V} {options : ProgramOptions} {inst : Instance V}
  {initial : AList fun _ : Text => V}

/-- The arguments of the parser in `Initialize`. -/
def initializeArguments (inst : Instance V) (db : Db) : List (List Text) :=
  ((inst.config.initializeTopology db).2.map fun configured =>
    configured.map fun record : Configured => toChannelConfig record.sp).toList

/-- The arguments of the parser for the connect channels. -/
def connectArguments (inst : Instance V) (db : Db) (views : Nat → View) : List (List Text) :=
  match inst.fConnectConfig with
  | some children => (configConnect views inst.config children 0).2.toList
  | none =>
      match inst.config.connectOptions db with
      | .error _ => []
      | .ok channelOptions => channelOptions.map fun option => [option.2]

/-- The keys of the properties that the parser makes. -/
def parsedKeys (transport : Transport V) (inst : Instance V) (arguments : List (List Text)) :
    List Text :=
  arguments.flatMap fun channelConfig =>
    ((transport.suboptParser channelConfig inst.config.fServiceName).map (·.keys)).getD []

/-- None of the properties that an operation sets was there at the start, and none
that it sets for a connect channel is a default property. -/
def SetsOwn (transport : Transport V) (options : ProgramOptions)
    (initial : AList fun _ : Text => V) (inst : Instance V) : Operation → Prop
  | .initializeTopology db =>
      ∀ key ∈ parsedKeys transport inst (inst.initializeArguments db),
        key ∉ inst.defaultChannelProperties transport options → key ∉ initial
  | .connect db views =>
      ∀ key ∈ parsedKeys transport inst (inst.connectArguments db views),
        key ∉ inst.fDefaultChannelProperties ∧ key ∉ initial
  | _ => True

instance decidableSetsOwn :
    ∀ operation, Decidable (SetsOwn transport options initial inst operation)
  | .initializeTopology _ => inferInstanceAs (Decidable (∀ key ∈ parsedKeys _ _ _, _ → _))
  | .connect _ _ => inferInstanceAs (Decidable (∀ key ∈ parsedKeys _ _ _, _ ∧ _))
  | .writeBindAddress _ => inferInstanceAs (Decidable True)
  | .writeConnectAddress _ => inferInstanceAs (Decidable True)
  | .reset _ => inferInstanceAs (Decidable True)

theorem mem_parsedKeys {arguments : List (List Text)} {channelConfig : List Text}
    {parsed : AList fun _ : Text => V} {key : Text} (member : channelConfig ∈ arguments)
    (parsing : transport.suboptParser channelConfig inst.config.fServiceName = some parsed)
    (inParsed : key ∈ parsed) : key ∈ parsedKeys transport inst arguments := by
  apply List.mem_flatMap.mpr ⟨channelConfig, member, _⟩
  rw [parsing]
  exact AList.mem_keys.mp inParsed

/-- The default properties have their values of the start, and in the state `Idle`
all properties of channels have. -/
structure Untouched (initial : AList fun _ : Text => V) (inst : Instance V) : Prop where
  defaults : ∀ key ∈ inst.fDefaultChannelProperties,
    inst.properties.lookup key = initial.lookup key
  restored : inst.position = .idle → ∀ key, chansPrefix ++ ['.'] <+: key →
    inst.properties.lookup key = initial.lookup key

/-- The recorded properties are the instance's own, and the others have their
values of the start. -/
structure Records (initial : AList fun _ : Text => V) (inst : Instance V) : Prop where
  own : ∀ key ∈ inst.fCustomChannelProperties,
    key ∉ inst.fDefaultChannelProperties ∧ key ∉ initial
  same : ∀ key, key ∉ inst.fCustomChannelProperties →
    inst.properties.lookup key = initial.lookup key

/-- The properties are as recorded, and nothing is recorded in the state `Idle`. -/
structure Kept (initial : AList fun _ : Text => V) (inst : Instance V) : Prop where
  records : Records initial inst
  idle : inst.position = .idle → ∀ key, key ∉ inst.fCustomChannelProperties

theorem Kept.untouched (kept : Kept initial inst) : Untouched initial inst := by
  constructor
  · intro key member
    apply kept.records.same
    intro custom
    exact (kept.records.own key custom).1 member
  · intro atIdle key _
    exact kept.records.same key (kept.idle atIdle key)

theorem Records.congr {other : Instance V} (records : Records initial inst)
    (sameDefaults : other.fDefaultChannelProperties = inst.fDefaultChannelProperties)
    (sameCustom : other.fCustomChannelProperties = inst.fCustomChannelProperties)
    (sameProperties : other.properties = inst.properties) : Records initial other := by
  constructor
  · rw [sameDefaults, sameCustom]
    exact records.own
  · rw [sameCustom, sameProperties]
    exact records.same

/-- Setting own properties keeps the others. -/
theorem Records.setChannelProperties (records : Records initial inst)
    {parsed : AList fun _ : Text => V}
    (own : ∀ key ∈ parsed, key ∉ inst.fDefaultChannelProperties ∧ key ∉ initial) :
    Records initial (inst.setChannelProperties transport parsed) := by
  constructor
  · intro key member
    rcases AList.mem_union.mp member with new | old
    · exact own key (mem_textsOf.mp new)
    · exact records.own key old
  · intro key notMember
    have notUnion := mt AList.mem_union.mpr notMember
    rw [not_or, mem_textsOf] at notUnion
    have lookupOld : (inst.setChannelProperties transport parsed).properties.lookup key =
        inst.properties.lookup key :=
      AList.lookup_union_right notUnion.1
    rw [lookupOld]
    exact records.same key notUnion.2

theorem Records.setOptions (records : Records initial inst) (channelOptions : List (Text × Text))
    (own : ∀ option ∈ channelOptions, ∀ parsed,
      transport.suboptParser [option.2] inst.config.fServiceName = some parsed →
        ∀ key ∈ parsed, key ∉ inst.fDefaultChannelProperties ∧ key ∉ initial) :
    Records initial (inst.setOptions transport channelOptions) := by
  induction channelOptions generalizing inst with
  | nil => exact records
  | cons option rest ih =>
      rw [Instance.setOptions]
      cases parsing : transport.suboptParser [option.2] inst.config.fServiceName with
      | none => exact records
      | some parsed =>
          apply ih (records.setChannelProperties (own option List.mem_cons_self parsed parsing))
          intro other member
          exact own other (List.mem_cons_of_mem _ member)

/-- `Initialize` from the state `Idle`. -/
theorem Kept.initializeTopology (kept : Kept initial inst) (atIdle : inst.position = .idle)
    {db : Db}
    (sets : SetsOwn transport options initial inst (.initializeTopology db)) :
    Records initial (inst.initializeTopology transport options db) := by
  have empty := kept.idle atIdle
  have collected (config : TopologyConfig) : Records initial
      { inst with
        config := config
        fDefaultChannelProperties := inst.defaultChannelProperties transport options } :=
    ⟨fun key custom => absurd custom (empty key), kept.records.same⟩
  have published (config : TopologyConfig) (commands : List Command) : Records initial
      ({ inst with
        config := config
        fDefaultChannelProperties :=
          inst.defaultChannelProperties transport options }.exec commands) :=
    (collected config).congr rfl rfl rfl
  unfold Instance.initializeTopology
  simp only
  rcases result : inst.config.initializeTopology db with ⟨config, _ | configured⟩
  · exact collected config
  · simp only
    cases parsing : transport.suboptParser
        (configured.map fun record => toChannelConfig record.sp) inst.config.fServiceName with
    | none => exact published config _
    | some parsed =>
        apply (published config _).setChannelProperties
        intro key member
        rcases mem_withoutDefaults.mp member with ⟨inParsed, notDefault⟩
        apply And.intro notDefault (sets key (mem_parsedKeys _ parsing inParsed) notDefault)
        simp [initializeArguments, result]

/-- `ConfigConnect` and `ResolveConnectAddress`. -/
theorem Records.connect (records : Records initial inst) {db : Db} {views : Nat → View}
    (sets : SetsOwn transport options initial inst (.connect db views)) :
    Records initial (inst.connect transport db views) := by
  have withConfig (config : TopologyConfig) (option : Option (List (Text × Message.PTree))) :
      Records initial { inst with config := config, fConnectConfig := option } :=
    records.congr rfl rfl rfl
  unfold Instance.connect
  simp only [SetsOwn, connectArguments] at sets
  cases given : inst.fConnectConfig with
  | some children =>
      simp only [given] at sets
      simp only
      rcases result : configConnect views inst.config children 0 with ⟨config, channelOptions⟩
      simp only [result] at sets
      match channelOptions, sets with
      | none, _ => exact withConfig config _
      | some [], _ => exact withConfig config _
      | some (first :: rest), sets =>
          simp only
          cases parsing : transport.suboptParser (first :: rest) inst.config.fServiceName with
          | none => exact withConfig config _
          | some parsed =>
              exact (withConfig config _).setChannelProperties
                fun key member => sets key
                  (mem_parsedKeys (Option.mem_toList.mpr rfl) parsing member)
  | none =>
      simp only [given] at sets
      simp only
      cases resolved : inst.config.connectOptions db with
      | error fault => exact records
      | ok channelOptions =>
          simp only [resolved] at sets
          apply records.setOptions
          intro option member parsed parsing key inParsed
          have listed := (transport.order_perm channelOptions).mem_iff.mp member
          exact sets key (mem_parsedKeys (List.mem_map.mpr ⟨option, listed, rfl⟩) parsing inParsed)

/-- `Reset` deletes what was recorded. -/
theorem Records.reset (records : Records initial inst) (db : Db) :
    Records initial (inst.reset db) := by
  constructor
  · intro key custom
    exact absurd custom (AList.notMem_empty key)
  · intro key _
    have erased : (inst.reset db).properties.lookup key =
        if key ∈ inst.fCustomChannelProperties.keys then none else inst.properties.lookup key :=
      lookup_foldl_erase _ _
    rw [erased]
    by_cases custom : key ∈ inst.fCustomChannelProperties.keys
    · rw [if_pos custom]
      exact (AList.lookup_eq_none.mpr (records.own key custom).2).symm
    · rw [if_neg custom]
      exact records.same key custom

/-- One operation. -/
theorem Kept.step {next : Instance V} {operation : Operation} (kept : Kept initial inst)
    (sets : SetsOwn transport options initial inst operation)
    (stepped : inst.step transport options operation = some next) : Kept initial next := by
  unfold Instance.step at stepped
  split at stepped
  · rename_i db atIdle
    cases stepped
    exact ⟨(kept.initializeTopology atIdle sets).congr rfl rfl rfl, nofun⟩
  · cases stepped
    exact ⟨kept.records.congr rfl rfl rfl, nofun⟩
  · cases stepped
    exact ⟨(kept.records.connect sets).congr rfl rfl rfl, nofun⟩
  · cases stepped
    exact ⟨kept.records.congr rfl rfl rfl, nofun⟩
  · cases stepped
  · rename_i db _
    cases stepped
    exact ⟨(kept.records.reset db).congr rfl rfl rfl, fun _ => AList.notMem_empty⟩
  · cases stepped

/-- Every run of a new instance whose operations set own properties only. -/
theorem untouched_of_setsOwn {V : Type} {transport : Transport V} {options : ProgramOptions}
    {inst : Instance V} (noCustom : inst.fCustomChannelProperties = ∅) {operations : List Operation}
    (sets : Meets (step transport options) (SetsOwn transport options inst.properties) inst
      operations) :
    Always (step transport options) (Untouched inst.properties) inst operations := by
  have initial : Kept inst.properties inst := by
    constructor
    · constructor
      · rw [noCustom]
        exact fun key custom => absurd custom (AList.notMem_empty key)
      · exact fun _ _ => rfl
    · rw [noCustom]
      exact fun _ => AList.notMem_empty
  exact always_of_invariant (fun kept own stepped => kept.step own stepped) Kept.untouched initial
    sets

/-- The parser of options with one address each. -/
def optionParser (channelConfig : List Text) : AList fun _ : Text => Text :=
  (channelConfig.flatMap fun option =>
    let settings := (Text.split option [',']).map fun setting =>
      (setting.takeWhile (· ≠ '='), (setting.dropWhile (· ≠ '=')).drop 1)
    let name := (settings.lookup (Field.text .name)).getD []
    (settings.filter (·.1 ≠ Field.text .name)).map fun setting =>
      (⟨localKey name 0 ++ ['.'] ++ setting.1, setting.2⟩ : Sigma fun _ : Text => Text)).toAList

/-- A transport layer with this parser. -/
def lineTransport : Transport Text where
  suboptParser channelConfig _ := some (optionParser channelConfig)
  jsonParser _ _ := none
  convertPropertyToString := id
  order := id
  order_perm _ := .refl _

/-- A channel on the command line. -/
def lineChannel (channel : Text) : List Text :=
  ["name=".toList ++ channel ++ ",type=push,method=connect,address=tcp://10.0.0.9:5555".toList]

def lineOptions (channel : Text) : ProgramOptions :=
  ⟨some "Sampler-0".toList, none, none, some (lineChannel channel)⟩

/-- A sampler that is started with a channel on the command line. -/
def lineInstance (channel : Text) : Instance Text where
  config := { fTopPrefix := topPrefix, fServiceName := "Sampler".toList, fId := "Sampler-0".toList }
  properties := optionParser (lineChannel channel)

/-- A registry with an endpoint for the sampler's channel `out`. -/
def lineRegistry : Db :=
  hset ∅ "daq_service:topology:endpoint:Sampler:out".toList
    [(Field.text .type, "push".toList), (Field.text .method, "connect".toList)]

/-- One cycle of the sampler. -/
def lineCycle : List Operation :=
  [.initializeTopology lineRegistry, .writeBindAddress ∅,
    .connect lineRegistry fun _ => ⟨lineRegistry, false⟩, .writeConnectAddress ∅,
    .reset lineRegistry]

/-- The channel is on the command line and in the topology: it loses its address
when it is connected. -/
theorem lineChannel_touched :
    ¬ Always (step lineTransport (lineOptions "out".toList))
      (Untouched (lineInstance "out".toList).properties) (lineInstance "out".toList) lineCycle := by
  intro untouched
  have address : ((run (step lineTransport (lineOptions "out".toList)) (lineInstance "out".toList)
      (lineCycle.take 3)).map fun inst =>
        decide (localKey "out".toList 0 ++ ".address".toList ∈ inst.fDefaultChannelProperties ∧
          inst.properties.lookup (localKey "out".toList 0 ++ ".address".toList) ≠
            (lineInstance "out".toList).properties.lookup
              (localKey "out".toList 0 ++ ".address".toList))) = some true := by
    decide +kernel
  rcases Option.map_eq_some_iff.mp address with ⟨inst, reached, changed⟩
  rcases of_decide_eq_true changed with ⟨isDefault, differs⟩
  have there := (always_iff_forall_reached _ _ _ _).mp untouched _
    (List.take_prefix 3 _) inst reached
  exact differs (there.defaults _ isDefault)

/-- Another channel on the command line is not touched in the whole cycle. -/
theorem lineChannel_untouched :
    Always (step lineTransport (lineOptions "aux".toList))
      (Untouched (lineInstance "aux".toList).properties) (lineInstance "aux".toList) lineCycle :=
  untouched_of_setsOwn rfl (by decide +kernel)

end Instance

end NestDaq.Topology
