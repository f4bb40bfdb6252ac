import NestDaq.Topology.Config
import NestDaq.Transition.Run

/-!
# What Initialize reads and publishes

The channels of an instance come from its connect-config option and its
endpoints, and `Initialize` leaves the pipelines of `WriteChannel` in the
registry, one for each channel.
-/

namespace NestDaq.Topology

open NestDaq.Store
open NestDaq.Registry

namespace TopologyConfig

variable {config : TopologyConfig} {db : Db}

/-- A property of all channels of an instance under their names. -/
def AllChannels (config : TopologyConfig) (good : Text → SocketProperty → Prop) : Prop :=
  ∀ name sp, config.fBindChannels.lookup name = some sp ∨
    config.fConnectChannels.lookup name = some sp → good name sp

/-! ## Reading the channels -/

theorem addChannel_eq (config : TopologyConfig) (sp : SocketProperty) : ∃ bind connect,
    config.addChannel sp = { config with fBindChannels := bind, fConnectChannels := connect } := by
  unfold addChannel
  split
  · exact ⟨_, _, rfl⟩
  · split <;> exact ⟨_, _, rfl⟩

theorem lookup_insert_channel {channels : MQChannel} {sp sp' : SocketProperty} {name : Text}
    (found : (channels.insert sp.name sp).lookup name = some sp') :
    (name = sp.name ∧ sp' = sp) ∨ channels.lookup name = some sp' := by
  by_cases same : name = sp.name
  · subst same
    rw [AList.lookup_insert] at found
    exact Or.inl ⟨rfl, (Option.some.inj found).symm⟩
  · rw [AList.lookup_insert_ne same] at found
    exact Or.inr found

theorem lookup_emplace {channels : MQChannel} {sp sp' : SocketProperty} {name : Text}
    (found : (emplace channels sp).lookup name = some sp') :
    (name = sp.name ∧ sp' = sp) ∨ channels.lookup name = some sp' := by
  unfold emplace at found
  split at found
  · exact Or.inr found
  · exact lookup_insert_channel found

theorem AllChannels.addChannel {good : Text → SocketProperty → Prop}
    (all : config.AllChannels good) {sp : SocketProperty} (here : good sp.name sp) :
    (config.addChannel sp).AllChannels good := by
  intro name sp' found
  unfold TopologyConfig.addChannel at found
  split at found
  · rcases found with found | found
    · rcases lookup_emplace found with ⟨rfl, rfl⟩ | found
      · exact here
      · exact all name sp' (Or.inl found)
    · exact all name sp' (Or.inr found)
  · split at found
    · rcases found with found | found
      · exact all name sp' (Or.inl found)
      · rcases lookup_emplace found with ⟨rfl, rfl⟩ | found
        · exact here
        · exact all name sp' (Or.inr found)
    · exact all name sp' found

/-- Reading the channels changes the channels only, and what holds of the channels
of the option and of the endpoints holds of all channels. -/
theorem readChannels_spec {good : Text → SocketProperty → Prop} {result : TopologyConfig}
    (read : config.readChannels db = some result) (all : config.AllChannels good)
    (ofOption : ∀ child ∈ config.connectConfig, ∀ sp,
      connectChannel child.1 child.2 = some sp → good sp.name sp)
    (ofEndpoint : ∀ endpoint ∈ config.readEndpoints db, ∀ sp,
      config.readEndpointProperty db endpoint = some sp → good sp.name sp) :
    (∃ bind connect, result =
      { config with fBindChannels := bind, fConnectChannels := connect }) ∧
      result.AllChannels good := by
  let invariant (current : TopologyConfig) : Prop :=
    (∃ bind connect, current =
      { config with fBindChannels := bind, fConnectChannels := connect }) ∧
      current.AllChannels good
  have added {current : TopologyConfig} {sp : SocketProperty} (holds : invariant current)
      (here : good sp.name sp) : invariant (current.addChannel sp) := by
    obtain ⟨⟨bind, connect, rfl⟩, all⟩ := holds
    obtain ⟨bind', connect', changed⟩ := addChannel_eq
      { config with fBindChannels := bind, fConnectChannels := connect } sp
    exact ⟨⟨bind', connect', changed⟩, all.addChannel here⟩
  rw [readChannels, Option.bind_eq_bind, Option.bind_eq_some_iff] at read
  obtain ⟨middle, first, second⟩ := read
  have afterOption : invariant middle := by
    refine Transition.foldlM_invariant ?_ ⟨⟨_, _, rfl⟩, all⟩ first
    intro current child next member holds stepped
    obtain ⟨sp, found, rfl⟩ := Option.map_eq_some_iff.mp stepped
    exact added holds (ofOption child member sp found)
  have endpoints : middle.readEndpoints db = config.readEndpoints db := by
    obtain ⟨⟨bind, connect, rfl⟩, -⟩ := afterOption
    rfl
  rw [endpoints] at second
  refine @Transition.foldlM_invariant _ _ _ invariant _ _ _ ?_ afterOption second
  intro current endpoint next member holds stepped
  obtain ⟨sp, found, rfl⟩ := Option.map_eq_some_iff.mp stepped
  refine added holds (ofEndpoint endpoint member sp ?_)
  obtain ⟨⟨bind, connect, rfl⟩, -⟩ := holds
  exact found

theorem readChannels_eq {result : TopologyConfig} (read : config.readChannels db = some result) :
    ∃ bind connect, result = { config with fBindChannels := bind, fConnectChannels := connect } :=
  (@readChannels_spec _ _ (fun _ _ => True) _ read (fun _ _ _ => trivial)
    (fun _ _ _ _ => trivial) fun _ _ _ _ => trivial).1

theorem endpointKey_append (config : TopologyConfig) (channel : Text) :
    config.endpointKey channel = config.endpointKey [] ++ channel := by
  simp [endpointKey, key]

theorem mem_readEndpoints (plain : Glob.Plain config.fServiceName) (standard : config.Standard)
    {endpoint : Text} : endpoint ∈ config.readEndpoints db ↔
      ∃ channel, endpoint = config.endpointKey channel ∧ endpoint ∈ db := by
  have shape (channel : Text) : config.endpointKey channel =
      (Text.join [topPrefix, topologyPrefix, endpointPrefix] colon ++
        ':' :: (config.fServiceName ++ [':'])) ++ channel := by
    simp [endpointKey, key, standard.top, standard.separator, colon]
  have plainKey : Glob.Plain (Text.join [topPrefix, topologyPrefix, endpointPrefix] colon ++
      ':' :: (config.fServiceName ++ [':'])) :=
    Glob.Plain.append (by decide) ((plain.append (by decide)).cons (by decide))
  rw [readEndpoints, shape, mem_scan, Glob.stringmatch_plain_append plainKey]
  constructor
  · rintro ⟨inDb, channel, rfl, -⟩
    exact ⟨channel, (shape channel).symm, inDb⟩
  · rintro ⟨channel, rfl, inDb⟩
    exact ⟨inDb, channel, shape channel, Glob.stringmatch_anyText channel⟩

/-- A channel read from an endpoint has the last part of the endpoint's key as its
name. -/
theorem readEndpointProperty_endpointKey (config : TopologyConfig) (db : Db) (channel : Text) :
    config.readEndpointProperty db (config.endpointKey channel) =
      (toSocketProperty (hgetall db (config.endpointKey channel))).map fun sp =>
        { sp with name := channel } := by
  rw [readEndpointProperty, endpointKey_append, Text.substrFrom, List.drop_left]

/-- The maps hold the channels of their method. -/
structure Sorted (config : TopologyConfig) : Prop where
  bind : ∀ name sp, config.fBindChannels.lookup name = some sp → sp.method = "bind".toList
  connect : ∀ name sp, config.fConnectChannels.lookup name = some sp →
    sp.method = "connect".toList

theorem Sorted.addChannel (sorted : config.Sorted) (sp : SocketProperty) :
    (config.addChannel sp).Sorted := by
  unfold TopologyConfig.addChannel
  split
  · rename_i isBind
    refine ⟨fun name sp' found => ?_, sorted.connect⟩
    rcases lookup_emplace found with ⟨rfl, rfl⟩ | found
    · exact isBind
    · exact sorted.bind name sp' found
  · split
    · rename_i isConnect
      refine ⟨sorted.bind, fun name sp' found => ?_⟩
      rcases lookup_emplace found with ⟨rfl, rfl⟩ | found
      · exact isConnect
      · exact sorted.connect name sp' found
    · exact sorted

theorem readChannels_sorted {result : TopologyConfig} (sorted : config.Sorted)
    (read : config.readChannels db = some result) : result.Sorted := by
  rw [readChannels, Option.bind_eq_bind, Option.bind_eq_some_iff] at read
  obtain ⟨middle, first, second⟩ := read
  have step {property : Option SocketProperty} {current next : TopologyConfig}
      (holds : current.Sorted) (stepped : property.map current.addChannel = some next) :
      next.Sorted := by
    obtain ⟨sp, -, rfl⟩ := Option.map_eq_some_iff.mp stepped
    exact holds.addChannel sp
  exact Transition.foldlM_invariant (fun _ holds stepped => step holds stepped)
    (Transition.foldlM_invariant (fun _ holds stepped => step holds stepped) sorted first) second

/-- Every endpoint of a known method is among the channels of its method. -/
theorem readChannels_complete {result : TopologyConfig}
    (read : config.readChannels db = some result) {endpoint : Text}
    (member : endpoint ∈ config.readEndpoints db) {sp : SocketProperty}
    (property : config.readEndpointProperty db endpoint = some sp) :
    (sp.method = "bind".toList → sp.name ∈ result.fBindChannels) ∧
      (sp.method = "connect".toList → sp.name ∈ result.fConnectChannels) := by
  rw [readChannels, Option.bind_eq_bind, Option.bind_eq_some_iff] at read
  obtain ⟨middle, first, second⟩ := read
  have added {current next : TopologyConfig} {read : Option SocketProperty}
      (same : ∃ bind connect, current =
        { config with fBindChannels := bind, fConnectChannels := connect })
      (stepped : read.map current.addChannel = some next) : ∃ bind connect, next =
        { config with fBindChannels := bind, fConnectChannels := connect } := by
    obtain ⟨bind, connect, rfl⟩ := same
    obtain ⟨sp', -, rfl⟩ := Option.map_eq_some_iff.mp stepped
    exact addChannel_eq { config with fBindChannels := bind, fConnectChannels := connect } sp'
  have middleEq := @Transition.foldlM_invariant _ _ _ (fun current => ∃ bind connect, current =
      { config with fBindChannels := bind, fConnectChannels := connect }) _ _ _
    (fun _ same stepped => added same stepped) ⟨_, _, rfl⟩ first
  have endpoints : middle.readEndpoints db = config.readEndpoints db := by
    obtain ⟨bind, connect, rfl⟩ := middleEq
    rfl
  rw [endpoints] at second
  have emplaced (channels : MQChannel) (sp : SocketProperty) : sp.name ∈ emplace channels sp := by
    unfold emplace
    split
    · assumption
    · exact (AList.mem_insert _).mpr (Or.inl rfl)
  have stays {channels : MQChannel} {name : Text} (known : name ∈ channels)
      (other : SocketProperty) : name ∈ emplace channels other := by
    unfold emplace
    split
    · exact known
    · exact (AList.mem_insert _).mpr (Or.inr known)
  refine @Transition.foldlM_establishes _ _ _ (fun current => ∃ bind connect, current =
      { config with fBindChannels := bind, fConnectChannels := connect })
    (fun current => (sp.method = "bind".toList → sp.name ∈ current.fBindChannels) ∧
      (sp.method = "connect".toList → sp.name ∈ current.fConnectChannels)) _ _ _ _ member
    added ?_ ?_ middleEq second
  · rintro _ next ⟨bind, connect, rfl⟩ stepped
    rw [show readEndpointProperty { config with
      fBindChannels := bind, fConnectChannels := connect } db endpoint = some sp from property]
      at stepped
    obtain rfl := Option.some.inj stepped
    unfold TopologyConfig.addChannel
    refine ⟨fun isBind => ?_, fun isConnect => ?_⟩
    · rw [if_pos isBind]
      exact emplaced _ _
    · rw [if_neg (by rw [isConnect]; decide), if_pos isConnect]
      exact emplaced _ _
  · rintro current other next ⟨bindKnown, connectKnown⟩ stepped
    obtain ⟨sp', -, rfl⟩ := Option.map_eq_some_iff.mp stepped
    unfold TopologyConfig.addChannel
    split
    · exact ⟨fun isBind => stays (bindKnown isBind) _, connectKnown⟩
    · split
      · exact ⟨bindKnown, fun isConnect => stays (connectKnown isConnect) _⟩
      · exact ⟨bindKnown, connectKnown⟩

/-- A channel of the connect-config option has the name it is given there, and is
not marked as bound. -/
theorem connectChannel_spec {name : Text} {settings : Hash} {sp : SocketProperty}
    (made : connectChannel name settings = some sp) : sp.name = name ∧ sp.bound = false := by
  obtain ⟨known, read, rfl⟩ := Option.map_eq_some_iff.mp made
  refine ⟨rfl, ?_⟩
  have absent : Field.text .bound ∉ (connectSettings.filterMap fun setting =>
      (settings.lookup setting).map fun value => (setting, value)).map Prod.fst := by
    intro member
    obtain ⟨⟨key, value⟩, inSettings, rfl⟩ := List.mem_map.mp member
    obtain ⟨setting, isSetting, found⟩ := List.mem_filterMap.mp inSettings
    obtain ⟨value', -, pair⟩ := Option.map_eq_some_iff.mp found
    have sameKey : setting = Field.text .bound := congrArg Prod.fst pair
    rw [sameKey] at isSetting
    exact absurd isSetting (by decide)
  have unmarked := bound_of_toSocketProperty read
  rw [lookup_setFields_of_notMem absent] at unmarked
  exact unmarked

/-- Collecting the links changes the links only. -/
theorem collectLinks_eq {result : TopologyConfig}
    (collected : config.collectLinks db = some result) :
    ∃ fLinks, result = { config with fLinks := fLinks } := by
  refine @Transition.foldlM_invariant _ _ _
    (fun current : TopologyConfig => ∃ fLinks, current = { config with fLinks := fLinks }) _ _ _ ?_
    ⟨config.fLinks, rfl⟩ collected
  rintro current link next - ⟨fLinks, rfl⟩ stepped
  obtain ⟨lp, -, rfl⟩ := Option.map_eq_some_iff.mp stepped
  simp only [addLink]
  split <;> exact ⟨_, rfl⟩

/-! ## Publishing the channels -/

theorem AllChannels.storeChannel {good : Text → SocketProperty → Prop}
    (all : config.AllChannels good) {sp : SocketProperty} (here : good sp.name sp) :
    (config.storeChannel sp).AllChannels good := by
  intro name sp' found
  unfold TopologyConfig.storeChannel at found
  split at found
  · rcases found with found | found
    · rcases lookup_insert_channel found with ⟨rfl, rfl⟩ | found
      · exact here
      · exact all name sp' (Or.inl found)
    · exact all name sp' (Or.inr found)
  · rcases found with found | found
    · exact all name sp' (Or.inl found)
    · rcases lookup_insert_channel found with ⟨rfl, rfl⟩ | found
      · exact here
      · exact all name sp' (Or.inr found)

theorem Sorted.storeChannel (sorted : config.Sorted) {sp : SocketProperty}
    (method : sp.method = "bind".toList ∨ sp.method = "connect".toList) :
    (config.storeChannel sp).Sorted := by
  unfold TopologyConfig.storeChannel
  split
  · rename_i isBind
    refine ⟨fun name sp' found => ?_, sorted.connect⟩
    rcases lookup_insert_channel found with ⟨-, rfl⟩ | found
    · exact isBind
    · exact sorted.bind name sp' found
  · rename_i notBind
    refine ⟨sorted.bind, fun name sp' found => ?_⟩
    rcases lookup_insert_channel found with ⟨-, rfl⟩ | found
    · exact method.resolve_left notBind
    · exact sorted.connect name sp' found

theorem registerChannel_eq (config : TopologyConfig) (sp : SocketProperty) (peers : List Text) :
    ∃ bind connect keys, config.registerChannel sp peers = { config with
      fBindChannels := bind, fConnectChannels := connect, fRegisteredKeys := keys } := by
  unfold registerChannel storeChannel
  split <;> exact ⟨_, _, _, rfl⟩

theorem lookup_registerChannel_of_ne {sp : SocketProperty} (peers : List Text) {name : Text}
    (differs : name ≠ sp.name) :
    (config.registerChannel sp peers).fBindChannels.lookup name =
        config.fBindChannels.lookup name ∧
      (config.registerChannel sp peers).fConnectChannels.lookup name =
        config.fConnectChannels.lookup name := by
  unfold registerChannel storeChannel
  split
  · exact ⟨AList.lookup_insert_ne differs, rfl⟩
  · exact ⟨rfl, AList.lookup_insert_ne differs⟩

/-- The keys that publishing a list of channels may change. -/
def publishedKeys (config : TopologyConfig) (channels : List SocketProperty) : List Text :=
  channels.flatMap fun sp =>
    [config.channelKey sp.name, config.peerListKey (config.channelKey sp.name)]

/-- Each channel is configured by the registry found at its turn, and the
registry changes by the pipelines of `WriteChannel`. -/
structure Publishes (config : TopologyConfig) (db : Db) (channels : List SocketProperty)
    (result : TopologyConfig × Db × List Configured) : Prop where
  identity : ∃ bind connect keys, result.1 = { config with
    fBindChannels := bind, fConnectChannels := connect, fRegisteredKeys := keys }
  all : ∀ good, config.AllChannels good → (∀ record ∈ result.2.2, good record.sp.name record.sp) →
    result.1.AllChannels good
  sorted : config.Sorted → (∀ record ∈ result.2.2,
    record.sp.method = "bind".toList ∨ record.sp.method = "connect".toList) → result.1.Sorted
  registry : result.2.1 =
    execAll db (result.2.2.flatMap fun record => config.writeChannel record.sp record.peers)
  names : result.2.2.map (·.sp.name) = channels.map (·.name)
  record : ∀ record ∈ result.2.2, ∃ sp ∈ channels,
    record.sp = config.configureChannel record.registry sp ∧
      record.peers = config.peers record.registry sp.name
  kept : ∀ record ∈ result.2.2, ∀ key ∉ config.publishedKeys channels,
    record.registry.lookup key = db.lookup key
  stored : (channels.map (·.name)).Nodup → ∀ record ∈ result.2.2,
    (if record.sp.method = "bind".toList then result.1.fBindChannels
      else result.1.fConnectChannels).lookup record.sp.name = some record.sp
  others : (channels.map (·.name)).Nodup → ∀ name, name ∉ channels.map (·.name) →
    result.1.fBindChannels.lookup name = config.fBindChannels.lookup name ∧
      result.1.fConnectChannels.lookup name = config.fConnectChannels.lookup name

theorem key_mem_publishedKeys {sp : SocketProperty} {peers : List Text} {command : Command}
    (member : command ∈ config.writeChannel sp peers) {channels : List SocketProperty}
    {sp' : SocketProperty} (inChannels : sp' ∈ channels) (same : sp.name = sp'.name) :
    command.key ∈ config.publishedKeys channels := by
  refine List.mem_flatMap.mpr ⟨sp', inChannels, ?_⟩
  rw [writeChannel] at member
  split at member
  · simp at member
  · simp only [List.mem_cons, List.not_mem_nil, or_false] at member
    rcases member with rfl | rfl | rfl | rfl <;> simp [Command.key, same]

theorem configureChannel_name (sp : SocketProperty) :
    (config.configureChannel db sp).name = sp.name := by
  have counted : (config.countPeers db sp).name = sp.name := by
    unfold countPeers
    split <;> rfl
  unfold configureChannel
  simp only
  split <;> exact counted

theorem configureChannel_bound (sp : SocketProperty) :
    (config.configureChannel db sp).bound = sp.bound := by
  have counted : (config.countPeers db sp).bound = sp.bound := by
    unfold countPeers
    split <;> rfl
  unfold configureChannel
  simp only
  split <;> exact counted

theorem configureChannel_waitForPeerConnection (sp : SocketProperty) :
    (config.configureChannel db sp).waitForPeerConnection = sp.waitForPeerConnection := by
  have counted : (config.countPeers db sp).waitForPeerConnection = sp.waitForPeerConnection := by
    unfold countPeers
    split <;> rfl
  unfold configureChannel
  simp only
  split <;> exact counted

theorem publishChannels_cons (config : TopologyConfig) (db : Db) (sp : SocketProperty)
    (rest : List SocketProperty) :
    config.publishChannels db (sp :: rest) =
      let configured := config.configureChannel db sp
      let peers := config.peers db sp.name
      let later := (config.registerChannel configured peers).publishChannels
        (execAll db (config.writeChannel configured peers)) rest
      (later.1, later.2.1, ⟨db, configured, peers⟩ :: later.2.2) :=
  rfl

/-- Publishing forgets no bind channel. -/
theorem mem_fBindChannels_publishChannels {channels : List SocketProperty} {name : Text}
    (member : name ∈ config.fBindChannels) :
    name ∈ (config.publishChannels db channels).1.fBindChannels := by
  induction channels generalizing config db with
  | nil => exact member
  | cons sp rest ih =>
      rw [publishChannels_cons]
      apply ih
      unfold registerChannel storeChannel
      split
      · exact (AList.mem_insert _).mpr (Or.inr member)
      · exact member

/-- Channels of different names end up in their maps as they were configured. -/
theorem publishChannels_stored {channels : List SocketProperty}
    (distinct : (channels.map (·.name)).Nodup) :
    (∀ record ∈ (config.publishChannels db channels).2.2,
      (if record.sp.method = "bind".toList then
        (config.publishChannels db channels).1.fBindChannels
      else (config.publishChannels db channels).1.fConnectChannels).lookup record.sp.name =
        some record.sp) ∧
    ∀ name, name ∉ channels.map (·.name) →
      (config.publishChannels db channels).1.fBindChannels.lookup name =
          config.fBindChannels.lookup name ∧
        (config.publishChannels db channels).1.fConnectChannels.lookup name =
          config.fConnectChannels.lookup name := by
  induction channels generalizing config db with
  | nil => exact ⟨fun _ member => absurd member List.not_mem_nil, fun _ _ => ⟨rfl, rfl⟩⟩
  | cons sp rest ih =>
      rw [List.map_cons, List.nodup_cons] at distinct
      obtain ⟨configured, isConfigured⟩ :
          ∃ configured, configured = config.configureChannel db sp :=
        ⟨_, rfl⟩
      obtain ⟨peers, arePeers⟩ : ∃ peers, peers = config.peers db sp.name := ⟨_, rfl⟩
      have unfolded := publishChannels_cons config db sp rest
      rw [← isConfigured, ← arePeers] at unfolded
      have sameName : configured.name = sp.name := by rw [isConfigured, configureChannel_name]
      obtain ⟨stored, kept⟩ := @ih (config.registerChannel configured peers)
        (execAll db (config.writeChannel configured peers)) distinct.2
      rw [unfolded]
      constructor
      · intro record member
        rcases List.mem_cons.mp member with rfl | inRest
        · obtain ⟨bindKept, connectKept⟩ := kept configured.name (sameName ▸ distinct.1)
          simp only
          split
          · rename_i isBind
            rw [bindKept, registerChannel, storeChannel, if_pos isBind]
            exact AList.lookup_insert _
          · rename_i notBind
            rw [connectKept, registerChannel, storeChannel, if_neg notBind]
            exact AList.lookup_insert _
        · exact stored record inRest
      · intro name absent
        rw [List.map_cons, List.mem_cons, not_or] at absent
        obtain ⟨bindKept, connectKept⟩ := kept name absent.2
        obtain ⟨bindSame, connectSame⟩ := lookup_registerChannel_of_ne peers
          (sameName ▸ absent.1 : name ≠ configured.name)
        exact ⟨bindKept.trans bindSame, connectKept.trans connectSame⟩

theorem publishChannels_spec (channels : List SocketProperty) :
    config.Publishes db channels (config.publishChannels db channels) := by
  induction channels generalizing config db with
  | nil =>
      exact {
        identity := ⟨_, _, _, rfl⟩
        all := fun _ all _ => all
        sorted := fun sorted _ => sorted
        registry := rfl
        names := rfl
        record := fun _ member => absurd member List.not_mem_nil
        kept := fun _ member => absurd member List.not_mem_nil
        stored := fun _ _ member => absurd member List.not_mem_nil
        others := fun _ _ _ => ⟨rfl, rfl⟩ }
  | cons sp rest ih =>
      obtain ⟨configured, isConfigured⟩ :
          ∃ configured, configured = config.configureChannel db sp :=
        ⟨_, rfl⟩
      obtain ⟨peers, arePeers⟩ : ∃ peers, peers = config.peers db sp.name := ⟨_, rfl⟩
      have unfolded := publishChannels_cons config db sp rest
      rw [← isConfigured, ← arePeers] at unfolded
      have sameName : configured.name = sp.name := by rw [isConfigured, configureChannel_name]
      have later := @ih (config.registerChannel configured peers)
        (execAll db (config.writeChannel configured peers))
      obtain ⟨bind, connect, keys, isRegistered⟩ := registerChannel_eq config configured peers
      rw [unfolded]
      constructor
      · obtain ⟨bind', connect', keys', last⟩ := later.identity
        exact ⟨bind', connect', keys', by rw [last, isRegistered]⟩
      · intro good all each
        refine later.all good (all.storeChannel ?_) fun record member =>
          each record (List.mem_cons_of_mem _ member)
        exact each ⟨db, configured, peers⟩ List.mem_cons_self
      · intro sorted methods
        have stored := sorted.storeChannel (methods ⟨db, configured, peers⟩ List.mem_cons_self)
        exact later.sorted ⟨stored.bind, stored.connect⟩ fun record member =>
          methods record (List.mem_cons_of_mem _ member)
      · rw [List.flatMap_cons, execAll_append, later.registry, isRegistered]
        rfl
      · rw [List.map_cons, List.map_cons, later.names]
        exact congrArg (· :: _) sameName
      · intro record member
        rcases List.mem_cons.mp member with rfl | inRest
        · exact ⟨sp, List.mem_cons_self, isConfigured, arePeers⟩
        · obtain ⟨sp', inRest', spEq, peersEq⟩ := later.record record inRest
          rw [isRegistered] at spEq peersEq
          exact ⟨sp', List.mem_cons_of_mem _ inRest', spEq, peersEq⟩
      · intro record member key absent
        have published : config.publishedKeys (sp :: rest) =
            config.publishedKeys [sp] ++ config.publishedKeys rest := by
          simp [publishedKeys]
        rw [published, List.mem_append, not_or] at absent
        rcases List.mem_cons.mp member with rfl | inRest
        · rfl
        · have keptLater := later.kept record inRest key (by rw [isRegistered]; exact absent.2)
          rw [keptLater]
          refine lookup_execAll_of_notMem db _ fun command written same => absent.1 ?_
          rw [same]
          exact key_mem_publishedKeys written List.mem_cons_self sameName
      · intro distinct
        rw [← unfolded]
        exact (publishChannels_stored distinct).1
      · intro distinct
        rw [← unfolded]
        exact (publishChannels_stored distinct).2

/-- The three phases of `Initialize`. -/
theorem initializeChannels_spec {config' : TopologyConfig} {db' : Db}
    {configured : List Configured}
    (initialized : config.initializeChannels db = some (config', db', configured)) :
    ∃ read collected, config.readChannels db = some read ∧ read.collectLinks db = some collected ∧
      collected.Publishes db collected.channelList (config', db', configured) := by
  rw [initializeChannels, Option.bind_eq_bind, Option.bind_eq_some_iff] at initialized
  obtain ⟨read, readEq, rest⟩ := initialized
  rw [Option.bind_eq_some_iff] at rest
  obtain ⟨collected, collectedEq, published⟩ := rest
  rw [← Option.some.inj published]
  exact ⟨read, collected, readEq, collectedEq, publishChannels_spec _⟩

theorem AllChannels.of_mem_channelList {good : Text → SocketProperty → Prop}
    (all : config.AllChannels good) {sp : SocketProperty} (member : sp ∈ config.channelList) :
    ∃ name, good name sp := by
  rcases List.mem_append.mp member with member | member
  · obtain ⟨⟨name, sp⟩, entry, rfl⟩ := List.mem_map.mp member
    exact ⟨name, all name sp (Or.inl (mem_ordered.mp entry))⟩
  · obtain ⟨⟨name, sp⟩, entry, rfl⟩ := List.mem_map.mp member
    exact ⟨name, all name sp (Or.inr (mem_ordered.mp entry))⟩

end TopologyConfig

end NestDaq.Topology
