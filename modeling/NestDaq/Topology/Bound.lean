import NestDaq.Topology.Address
import NestDaq.Topology.Publication
import NestDaq.Topology.SocketFields

/-!
# Bound means published

A connector that sees the bound mark of a channel finds all sub-sockets of the
channel in the registry, wherever its reads fall between the commands of the
instance that publishes them: the mark is false when the channel is written and
is set by the command right behind those of the sub-sockets.
-/

namespace NestDaq.Topology

open NestDaq.Store
open NestDaq.Registry
open TopologyConfig

/-- The properties of a channel with a number of sub-sockets, each with an address. -/
structure SubSockets (properties : Properties) (channel : Text) (count : Nat) : Prop where
  address : ∀ index < count, localKey channel index ++ ".address".toList ∈ properties
  only : ∀ name ∈ properties, chansPrefix ++ '.' :: (channel ++ ['.']) <+: name →
    ∃ index < count, localKey channel index ++ ['.'] <+: name

/-- No channel or socket key of the instance is in the registry. -/
def Unpublished (db : Db) (service instanceId : Text) : Prop :=
  ∀ key ∈ db, ¬ area service instanceId channelPrefix <+: key ∧
    ¬ area service instanceId socketPrefix <+: key

/-- Each view shows the registry between two commands of a publication, and later
views show later states. -/
def Observes (views : Nat → View) (db : Db) (commands : List Command) : Prop :=
  ∃ progress : Nat → Nat, Monotone progress ∧
    ∀ time, (views time).registry = execAll db (commands.take (progress time))

theorem SubSockets.sockets {properties : Properties} {channel : Text} {count : Nat}
    (subSockets : SubSockets properties channel count) : Sockets properties channel count where
  present index below := ⟨"address".toList, subSockets.address index below⟩
  only name member isPrefix := by
    obtain ⟨index, below, field, rfl⟩ := subSockets.only name member isPrefix
    exact ⟨index, below, field, by simp [fieldKey]⟩

namespace TopologyConfig

variable {config : TopologyConfig} {db : Db}

/-- The commands of an instance in its first cycle: the pipelines of `WriteChannel`
and the pipeline of `WriteBindAddress`. -/
def publication (config : TopologyConfig) (configured : List Configured)
    (properties : Properties) : List Command :=
  configured.flatMap (fun record => config.writeChannel record.sp record.peers) ++
    config.writeBindAddress properties

theorem area_of_mem_writeChannel (standard : config.Standard) {sp : SocketProperty}
    {peers : List Text} {command : Command} (member : command ∈ config.writeChannel sp peers) :
    area config.fServiceName config.fId channelPrefix <+: command.key := by
  have channel := area_prefix_instanceChannelKey config.fServiceName config.fId sp.name
  rw [← channelKey_eq standard] at channel
  have list : config.channelKey sp.name <+: config.peerListKey (config.channelKey sp.name) :=
    ⟨':' :: peerPrefix, by simp [peerListKey, key, standard.separator, colon]⟩
  rw [writeChannel] at member
  split at member
  · simp at member
  · simp only [List.mem_cons, List.not_mem_nil, or_false] at member
    rcases member with rfl | rfl | rfl | rfl
    · exact channel
    · exact channel
    · exact channel.trans list
    · exact channel.trans list

theorem key_of_mem_writeSubSocket (standard : config.Standard) {properties : Properties}
    {sp : SocketProperty} {index : Nat} {command : Command}
    (member : command ∈ config.writeSubSocket properties sp index) :
    command.key = instanceSocketKey config.fServiceName config.fId sp.name index := by
  simp only [writeSubSocket, List.mem_cons, List.not_mem_nil, or_false] at member
  rcases member with rfl | rfl <;> exact socketKey_eq standard sp.name index

theorem isBound_eq_false_iff {key : Text} :
    isBound db key = false ↔
      ∀ value, hget db key (Field.text .bound) = some value → parseFlag value = false := by
  rw [isBound]
  cases hget db key (Field.text .bound) <;> simp

/-- The bound mark of a channel stays false under a command that does not set it. -/
def Quiet (channelKey : Text) (command : Command) : Prop :=
  command.key = channelKey → command = .expire channelKey ∨
    ∃ fields, command = .hset channelKey fields ∧
      ∀ value, (Field.text .bound, value) ∈ fields → parseFlag value = false

theorem isBound_execAll_of_quiet {channelKey : Text} (db : Db) (commands : List Command)
    (quiet : ∀ command ∈ commands, Quiet channelKey command)
    (before : isBound db channelKey = false) :
    isBound (execAll db commands) channelKey = false := by
  induction commands generalizing db with
  | nil => exact before
  | cons command commands ih =>
      apply ih _ fun other member => quiet other (List.mem_cons_of_mem _ member)
      by_cases same : command.key = channelKey
      · rcases quiet command List.mem_cons_self same with rfl | ⟨fields, rfl, unset⟩
        · exact before
        · rw [isBound_eq_false_iff]
          intro value found
          rw [show Command.exec db (.hset channelKey fields) = hset db channelKey fields from rfl,
            hget_hset] at found
          rcases mem_or_lookup_of_lookup_setFields found with written | kept
          · exact unset value written
          · exact isBound_eq_false_iff.mp before value kept
      · rw [isBound, hget_congr (command.lookup_exec_of_ne db (Ne.symm same))]
        exact before

theorem quiet_of_area {channel : Text} {command : Command}
    (inSockets : area config.fServiceName config.fId socketPrefix <+: command.key) :
    Quiet (instanceChannelKey config.fServiceName config.fId channel) command := by
  intro same
  rw [same] at inSockets
  exact absurd inSockets (not_area_socket (area_prefix_instanceChannelKey _ _ _))

/-- `WriteChannel` does not mark a channel whose properties do not. -/
theorem quiet_of_mem_writeChannel (standard : config.Standard) {channel : Text}
    (part : Part channel) {sp : SocketProperty} (unset : sp.name = channel → sp.bound = false)
    {peers : List Text} {command : Command} (member : command ∈ config.writeChannel sp peers) :
    Quiet (instanceChannelKey config.fServiceName config.fId channel) command := by
  have noList : config.peerListKey (config.channelKey sp.name) ≠
      instanceChannelKey config.fServiceName config.fId channel := by
    intro same
    rw [channelKey_eq standard] at same
    have tail : sp.name ++ ':' :: peerPrefix = channel := by
      simpa [peerListKey, key, standard.separator, colon, instanceChannelKey_eq] using same
    exact part (tail ▸ List.mem_append_right _ List.mem_cons_self)
  rw [writeChannel] at member
  split at member
  · simp at member
  · simp only [List.mem_cons, List.not_mem_nil, or_false] at member
    rcases member with rfl | rfl | rfl | rfl
    · intro same
      have sameKey : config.channelKey sp.name = _ := same
      refine Or.inr ⟨channelFields sp, by rw [sameKey], fun value written => ?_⟩
      rw [channelKey_eq standard] at sameKey
      have notSet := unset (instanceChannelKey_right_injective _ _ sameKey)
      obtain ⟨field, -, entry⟩ := List.mem_map.mp (channelFields_eq sp ▸ written)
      obtain ⟨sameField, rfl⟩ := Prod.mk.inj entry
      rw [Field.text_injective sameField]
      simp [fieldText, notSet]
    · intro same
      exact Or.inl (congrArg Command.expire same)
    · exact fun same => absurd same noList
    · exact fun same => absurd same noList

/-! ## The state after the mark -/

/-- The sub-socket commands of a channel give every sub-socket an address. -/
theorem address_mem_writeSubSocket {properties : Properties} {sp : SocketProperty} {index : Nat}
    (present : localKey sp.name index ++ ".address".toList ∈ properties) :
    ∃ fields, Command.hset (config.socketKey sp.name index) fields ∈
        config.writeSubSocket properties sp index ∧
      Field.text .address ∈ fields.map Prod.fst := by
  refine ⟨_, List.mem_cons_self, ?_⟩
  obtain ⟨value, found⟩ := Option.isSome_iff_exists.mp (AList.lookup_isSome.mpr present)
  have inChans : (localKey sp.name index ++ ".address".toList, value) ∈
      propertiesStartingWith properties (localKey sp.name index) := by
    rw [propertiesStartingWith, List.mem_filter]
    exact ⟨mem_ordered.mpr found, List.isPrefixOf_iff_prefix.mpr (List.prefix_append _ _)⟩
  have lastPart : Text.substrFrom (localKey sp.name index ++ ".address".toList) (Text.after
      (Text.findLastOf (localKey sp.name index ++ ".address".toList) ['.'])) =
      Field.text .address := by
    rw [show ".address".toList = '.' :: Field.text .address from rfl,
      Text.findLastOf_append_cons (by decide) (by decide)]
    exact Text.substrFrom_separator _ _ _
  rw [mem_keys_ordered, subSocketFields, mem_setFields, List.map_append, List.map_map]
  exact Or.inl (List.mem_append_left _ (List.mem_map.mpr ⟨_, inChans, lastPart⟩))

/-- What `WriteBindAddress` has queued before it marks a channel, and after. -/
theorem publication_split {properties : Properties} {configured : List Configured}
    {channel : Text} {sp : SocketProperty} (found : config.fBindChannels.lookup channel = some sp) :
    ∃ earlier later,
      ordered config.fBindChannels = earlier ++ (channel, sp) :: later ∧
      channel ∉ earlier.map Prod.fst ∧
      publication config configured properties =
        (configured.flatMap (fun record => config.writeChannel record.sp record.peers) ++
          earlier.flatMap (fun entry =>
            (List.range (subSocketCount properties entry.2.name)).flatMap
              (config.writeSubSocket properties entry.2) ++ config.markBound entry.1) ++
          (List.range (subSocketCount properties sp.name)).flatMap
            (config.writeSubSocket properties sp)) ++
        (config.markBound channel ++ later.flatMap fun entry =>
          (List.range (subSocketCount properties entry.2.name)).flatMap
            (config.writeSubSocket properties entry.2) ++ config.markBound entry.1) := by
  obtain ⟨earlier, later, split⟩ := List.append_of_mem (mem_ordered.mpr found)
  refine ⟨earlier, later, split, ?_, ?_⟩
  · have nodup := nodup_keys_ordered config.fBindChannels
    rw [split, List.map_append, List.map_cons] at nodup
    exact fun member => (List.nodup_append.mp nodup).2.2 _ member _ List.mem_cons_self rfl
  · simp [publication, writeBindAddress, writeAddress, split]

/-- Up to the mark of the channel, no command marks it. -/
theorem quiet_before_mark (standard : config.Standard) {channel : Text} (part : Part channel)
    {properties : Properties} {configured : List Configured}
    (unset : ∀ record ∈ configured, record.sp.name = channel → record.sp.bound = false)
    {entries : List (Text × SocketProperty)} (unmarked : channel ∉ entries.map Prod.fst)
    {command : Command}
    (member : command ∈ configured.flatMap (fun record =>
        config.writeChannel record.sp record.peers) ++
      entries.flatMap (fun entry =>
        (List.range (subSocketCount properties entry.2.name)).flatMap
          (config.writeSubSocket properties entry.2) ++ config.markBound entry.1)) :
    Quiet (instanceChannelKey config.fServiceName config.fId channel) command := by
  rcases List.mem_append.mp member with member | member
  · obtain ⟨record, inConfigured, written⟩ := List.mem_flatMap.mp member
    exact quiet_of_mem_writeChannel standard part (unset record inConfigured) written
  · obtain ⟨entry, inEntries, written⟩ := List.mem_flatMap.mp member
    rcases List.mem_append.mp written with inSockets | mark
    · obtain ⟨index, -, written⟩ := List.mem_flatMap.mp inSockets
      apply quiet_of_area
      rw [key_of_mem_writeSubSocket standard written]
      exact area_prefix_instanceSocketKey _ _ _ _
    · intro same
      obtain rfl := List.mem_singleton.mp mark
      have sameKey : config.channelKey entry.1 = _ := same
      rw [channelKey_eq standard] at sameKey
      exact absurd (List.mem_map.mpr ⟨entry, inEntries,
        instanceChannelKey_right_injective _ _ sameKey⟩) unmarked

/-- What the publication of a channel relies on after `Initialize`: the channels
are stored under their names, and the channel's properties do not mark it. -/
structure Publisher (config : TopologyConfig) (configured : List Configured) (channel : Text) :
    Prop where
  standard : config.Standard
  keyed : config.AllChannels fun name sp => sp.name = name ∧ Name name
  unset : ∀ record ∈ configured, record.sp.name = channel → record.sp.bound = false
  channelName : Name channel

variable {configured : List Configured} {channel : Text} {properties : Properties} {count : Nat}

/-- Whenever the mark is seen, the commands of all sub-sockets are executed. -/
theorem Publisher.executed_of_isBound (publisher : Publisher config configured channel)
    (absent : isBound db (instanceChannelKey config.fServiceName config.fId channel) = false)
    {progress : Nat}
    (seen : isBound (execAll db ((publication config configured properties).take progress))
      (instanceChannelKey config.fServiceName config.fId channel) = true) :
    ∃ sp, config.fBindChannels.lookup channel = some sp ∧
      ∀ index < subSocketCount properties sp.name, ∀ command ∈
        config.writeSubSocket properties sp index, ∀ later, progress ≤ later →
          command ∈ (publication config configured properties).take later := by
  cases found : config.fBindChannels.lookup channel with
  | none =>
      have unmarked : channel ∉ (ordered config.fBindChannels).map Prod.fst := by
        rw [mem_keys_ordered, ← AList.lookup_isSome, found]
        simp
      have quiet := isBound_execAll_of_quiet db
        ((publication config configured properties).take progress)
        (fun command member => quiet_before_mark publisher.standard publisher.channelName.part
          publisher.unset unmarked (List.mem_of_mem_take member)) absent
      rw [quiet] at seen
      cases seen
  | some sp =>
      obtain ⟨earlier, later, -, unmarked, split⟩ :=
        @publication_split config properties configured _ _ found
      refine ⟨sp, rfl, fun index below command written after later => ?_⟩
      rw [split] at seen ⊢
      have inSubs : command ∈ (List.range (subSocketCount properties sp.name)).flatMap
          (config.writeSubSocket properties sp) :=
        List.mem_flatMap.mpr ⟨index, List.mem_range.mpr below, written⟩
      rw [List.take_append, List.mem_append]
      left
      rw [List.take_of_length_le]
      · exact List.mem_append_right _ inSubs
      · by_contra short
        rw [List.take_append_of_le_length (later.trans (Nat.le_of_not_le short))] at seen
        apply Bool.false_ne_true
        rw [← seen]
        refine (isBound_execAll_of_quiet db _ (fun command member => ?_) absent).symm
        rcases List.mem_append.mp (List.mem_of_mem_take member) with before | inSockets
        · exact quiet_before_mark publisher.standard publisher.channelName.part
            publisher.unset unmarked before
        · obtain ⟨index, -, written⟩ := List.mem_flatMap.mp inSockets
          apply quiet_of_area
          rw [key_of_mem_writeSubSocket publisher.standard written]
          exact area_prefix_instanceSocketKey _ _ _ _

/-- A publication pushes to peer lists only. -/
theorem rpush_notMem_publication (standard : config.Standard) {key : Text}
    (inSockets : area config.fServiceName config.fId socketPrefix <+: key) (items : List Text) :
    Command.rpush key items ∉ publication config configured properties := by
  intro member
  rcases List.mem_append.mp member with member | member
  · obtain ⟨record, -, written⟩ := List.mem_flatMap.mp member
    exact not_area_socket (area_of_mem_writeChannel standard written) inSockets
  · obtain ⟨entry, -, written⟩ := List.mem_flatMap.mp member
    rcases List.mem_append.mp written with inSubs | mark
    · obtain ⟨index, -, written⟩ := List.mem_flatMap.mp inSubs
      simp [writeSubSocket] at written
    · simp [markBound] at mark

/-- The commands of `WriteBindAddress` under the socket keys of a channel are those
of its sub-sockets. -/
theorem socketKey_of_mem_writeBindAddress (standard : config.Standard) (channelFree : '.' ∉ channel)
    (keyed : ∀ name sp, config.fBindChannels.lookup name = some sp → sp.name = name ∧ '.' ∉ name)
    {command : Command} (written : command ∈ config.writeBindAddress properties)
    (isPrefix : socketKeyPrefix config.fServiceName config.fId channel <+: command.key) :
    ∃ index < subSocketCount properties channel,
      command.key = instanceSocketKey config.fServiceName config.fId channel index := by
  obtain ⟨⟨name, sp⟩, entry, written⟩ := List.mem_flatMap.mp written
  rcases List.mem_append.mp written with inSubs | mark
  · obtain ⟨index, below, written⟩ := List.mem_flatMap.mp inSubs
    obtain ⟨sameName, nameFree⟩ := keyed name sp (mem_ordered.mp entry)
    rw [key_of_mem_writeSubSocket standard written] at isPrefix ⊢
    obtain ⟨rest, equal⟩ := isPrefix
    have parts : channel ++ '.' :: rest = sp.name ++ '.' :: Text.decimal index := by
      simpa [instanceSocketKey, socketKeyPrefix] using equal
    obtain ⟨sameChannel, -⟩ := Text.append_separator_inj channelFree (sameName ▸ nameFree) parts
    rw [sameChannel]
    exact ⟨index, List.mem_range.mp below, rfl⟩
  · obtain rfl := List.mem_singleton.mp mark
    refine absurd (socketKeyPrefix_area.trans isPrefix) (not_area_socket ?_)
    rw [Command.key, channelKey_eq standard]
    exact area_prefix_instanceChannelKey _ _ _

/-- The socket keys of a channel in any state of the publication are those of
its sub-sockets. -/
theorem Publisher.socketKey_of_mem (publisher : Publisher config configured channel)
    (unpublished : Unpublished db config.fServiceName config.fId) {progress : Nat} {key : Text}
    (member : key ∈ execAll db ((publication config configured properties).take progress))
    (isPrefix : socketKeyPrefix config.fServiceName config.fId channel <+: key) :
    ∃ index < subSocketCount properties channel,
      key = instanceSocketKey config.fServiceName config.fId channel index := by
  have inArea : area config.fServiceName config.fId socketPrefix <+: key :=
    socketKeyPrefix_area.trans isPrefix
  rcases mem_of_mem_execAll db _ member with before | ⟨command, written, rfl⟩
  · exact absurd inArea (unpublished key before).2
  · rcases List.mem_append.mp (List.mem_of_mem_take written) with written | written
    · obtain ⟨record, -, written⟩ := List.mem_flatMap.mp written
      exact absurd inArea (not_area_socket (area_of_mem_writeChannel publisher.standard written))
    · refine socketKey_of_mem_writeBindAddress publisher.standard publisher.channelName.dotFree ?_
        written isPrefix
      intro name sp found
      obtain ⟨sameName, isName⟩ := publisher.keyed name sp (Or.inl found)
      exact ⟨sameName, isName.dotFree⟩

/-- A publication leaves the health hash of its instance unchanged. -/
theorem lookup_healthKey_publication (standard : config.Standard) (progress : Nat) :
    (execAll db ((publication config configured properties).take progress)).lookup
        (healthKey config.fServiceName config.fId) =
      db.lookup (healthKey config.fServiceName config.fId) := by
  have differs {kind : Text} (other : kind.head? = some 'c' ∨ kind.head? = some 's') :
      ¬ area config.fServiceName config.fId kind <+:
        healthKey config.fServiceName config.fId := by
    rintro ⟨rest, equal⟩
    have heads : kind ++ ':' :: rest = healthPrefix := by
      simpa [area, instanceKey_eq, healthKey, colon] using equal
    have first := congrArg List.head? heads
    rw [List.head?_append] at first
    rcases other with other | other <;> rw [other, Option.some_or] at first <;>
      exact absurd first (by decide)
  apply lookup_execAll_of_notMem
  intro command member same
  rcases List.mem_append.mp (List.mem_of_mem_take member) with member | member
  · obtain ⟨record, -, written⟩ := List.mem_flatMap.mp member
    exact differs (Or.inl rfl) (same ▸ area_of_mem_writeChannel standard written)
  · obtain ⟨entry, -, written⟩ := List.mem_flatMap.mp member
    rcases List.mem_append.mp written with inSubs | mark
    · obtain ⟨index, -, written⟩ := List.mem_flatMap.mp inSubs
      refine @differs socketPrefix (Or.inr rfl) ?_
      rw [same, key_of_mem_writeSubSocket standard written]
      exact area_prefix_instanceSocketKey _ _ _ _
    · obtain rfl := List.mem_singleton.mp mark
      refine @differs channelPrefix (Or.inl rfl) ?_
      rw [same, Command.key, channelKey_eq standard]
      exact area_prefix_instanceChannelKey _ _ _

/-- Once the mark of a channel is seen, every view has its sub-sockets with their
addresses, and no other socket keys of the channel. -/
theorem Publisher.subSockets_of_isBound (publisher : Publisher config configured channel)
    (unpublished : Unpublished db config.fServiceName config.fId)
    (subSockets : SubSockets properties channel count) {views : Nat → View}
    (observes : Observes views db (publication config configured properties)) {time : Nat}
    (seen : isBound (views time).registry
      (instanceChannelKey config.fServiceName config.fId channel) = true) {later : Nat}
    (after : time ≤ later) :
    (∀ index < count, (hget (views later).registry
        (instanceSocketKey config.fServiceName config.fId channel index)
        (Field.text .address)).isSome) ∧
      ∀ key ∈ (views later).registry,
        socketKeyPrefix config.fServiceName config.fId channel <+: key →
          ∃ index < count,
            key = instanceSocketKey config.fServiceName config.fId channel index := by
  obtain ⟨progress, monotone, shows⟩ := observes
  rw [shows] at seen
  have absent : isBound db (instanceChannelKey config.fServiceName config.fId channel) = false := by
    rw [isBound_eq_false_iff]
    intro value found
    have member : instanceChannelKey config.fServiceName config.fId channel ∈ db := by
      by_contra notMem
      rw [hget, hgetall, AList.lookup_eq_none.mpr notMem] at found
      simp at found
    exact absurd (area_prefix_instanceChannelKey _ _ _) (unpublished _ member).1
  obtain ⟨sp, found, executed⟩ := publisher.executed_of_isBound absent seen
  have sameName : sp.name = channel := (publisher.keyed channel sp (Or.inl found)).1
  rw [sameName, subSockets.sockets.subSocketCount_eq] at executed
  rw [shows]
  constructor
  · intro index below
    have present := subSockets.address index below
    rw [← sameName] at present
    obtain ⟨fields, command, written⟩ := @address_mem_writeSubSocket config _ _ _ present
    have member := executed index below _ command _ (monotone after)
    rw [sameName, socketKey_eq publisher.standard] at member
    refine isSome_hget_of_mem db member written fun items pushed => ?_
    exact rpush_notMem_publication publisher.standard (area_prefix_instanceSocketKey _ _ _ _) items
      (List.mem_of_mem_take pushed)
  · intro key member isPrefix
    obtain ⟨index, below, keyEq⟩ := publisher.socketKey_of_mem unpublished member isPrefix
    rw [subSockets.sockets.subSocketCount_eq] at below
    exact ⟨index, below, keyEq⟩

/-- An instance without channels yet is a publisher after `Initialize`, when its
names are names and the endpoint does not mark the channel. -/
theorem publisher_of_initializeChannels (standard : config.Standard)
    (plain : Glob.Plain config.fServiceName) (noBind : config.fBindChannels = ∅)
    (noConnect : config.fConnectChannels = ∅)
    (endpointNames : ∀ channel, config.endpointKey channel ∈ db → Name channel)
    (optionNames : ∀ child ∈ config.connectConfig, Name child.1)
    (channelName : Name channel) (unmarked : isBound db (config.endpointKey channel) = false)
    {config' : TopologyConfig} {db' : Db}
    (initialized : config.initializeChannels db = some (config', db', configured)) :
    config'.Publisher configured channel ∧ config'.fServiceName = config.fServiceName ∧
      config'.fId = config.fId := by
  let good (name : Text) (sp : SocketProperty) : Prop :=
    (sp.name = name ∧ Name name) ∧ (name = channel → sp.bound = false)
  obtain ⟨read, collected, readEq, collectedEq, published⟩ := initializeChannels_spec initialized
  have none : config.AllChannels good := by
    intro name sp found
    simp [noBind, noConnect] at found
  obtain ⟨⟨bind, connect, rfl⟩, all⟩ := readChannels_spec readEq none
    (by
      intro child member sp made
      obtain ⟨sameName, notMarked⟩ := connectChannel_spec made
      rw [sameName]
      exact ⟨⟨sameName, optionNames child member⟩, fun _ => notMarked⟩)
    (by
      intro endpoint member sp found
      obtain ⟨name, rfl, stored⟩ := (mem_readEndpoints plain standard).mp member
      have property := readEndpointProperty_endpointKey config db name
      rw [property] at found
      obtain ⟨sp, parsed, rfl⟩ := Option.map_eq_some_iff.mp found
      refine ⟨⟨rfl, endpointNames name stored⟩, ?_⟩
      rintro rfl
      rw [show ({ sp with name := name } : SocketProperty).bound = sp.bound from rfl,
        bound_of_toSocketProperty parsed]
      exact unmarked)
  obtain ⟨fLinks, rfl⟩ := collectLinks_eq collectedEq
  have records : ∀ record ∈ configured, good record.sp.name record.sp := by
    intro record member
    obtain ⟨sp, inChannels, spEq, -⟩ := published.record record member
    obtain ⟨name, ⟨sameName, isName⟩, notMarked⟩ :=
      @AllChannels.of_mem_channelList _ good all _ inChannels
    rw [spEq, configureChannel_name, sameName]
    exact ⟨⟨by rw [configureChannel_name, sameName], isName⟩, fun same => by
      rw [configureChannel_bound]
      exact notMarked same⟩
  have stored := published.all good all records
  obtain ⟨bind', connect', keys', rfl⟩ := published.identity
  exact ⟨⟨⟨standard.top, standard.separator⟩, fun name sp found => (stored name sp found).1,
    fun record member => (records record member).2, channelName⟩, rfl, rfl⟩

/-- In the first cycle of an instance, whenever a connector sees the mark of a
channel with `count` sub-sockets, all of them are in the registry with an
address, and `ReadPeerAddress` returns one entry for each without a retry: it
takes two reads for the peer and one for each sub-socket. -/
theorem isBound_subSockets_published (standard : config.Standard)
    (name : InstanceName config.fServiceName config.fId) (noBind : config.fBindChannels = ∅)
    (noConnect : config.fConnectChannels = ∅)
    (unpublished : Unpublished db config.fServiceName config.fId)
    (endpointNames : ∀ channel, config.endpointKey channel ∈ db → Name channel)
    (optionNames : ∀ child ∈ config.connectConfig, Name child.1)
    {ip : Text}
    (health : hget db (healthKey config.fServiceName config.fId) "hostIp".toList = some ip)
    (channelName : Name channel) (subSockets : SubSockets properties channel count)
    (unmarked : isBound db (config.endpointKey channel) = false)
    {config' : TopologyConfig} {db' : Db}
    (initialized : config.initializeChannels db = some (config', db', configured))
    {views : Nat → View} (observes : Observes views db (publication config' configured properties))
    {time : Nat}
    (seen : isBound (views time).registry
      (instanceChannelKey config.fServiceName config.fId channel) = true) :
    (∀ later, time ≤ later → ∀ index < count, (hget (views later).registry
        (instanceSocketKey config.fServiceName config.fId channel index)
        (Field.text .address)).isSome) ∧
      ∀ reader : TopologyConfig, reader.Standard → ∀ start, time ≤ start →
        ∃ addresses, reader.readPeerAddress views start
            (instanceChannelKey config.fServiceName config.fId channel) =
              .ok (addresses, start + 2 + count) ∧
          addresses.length = count := by
  obtain ⟨publisher, sameService, sameId⟩ := publisher_of_initializeChannels standard
    name.serviceName.plain noBind noConnect endpointNames optionNames channelName unmarked
    initialized
  rw [← sameService, ← sameId] at name unpublished health seen ⊢
  have published {later : Nat} (after : time ≤ later) :=
    publisher.subSockets_of_isBound unpublished subSockets observes seen after
  refine ⟨fun later after => (published after).1, fun reader readerStandard start after => ?_⟩
  have healthNow : hget (views start).registry (healthKey config'.fServiceName config'.fId)
      "hostIp".toList = some ip := by
    obtain ⟨progress, -, shows⟩ := observes
    rw [shows, hget_congr (lookup_healthKey_publication publisher.standard _)]
    exact health
  obtain ⟨addresses, read, each⟩ := readPeerAddress_of_present readerStandard name channelName
    healthNow (fun later follows => (published (after.trans follows)).1)
    (fun later follows => (published (after.trans follows)).2)
  exact ⟨addresses, read, by rw [← each.length_eq, length_subSocketKeys]⟩

/-- A sink with one bound channel, before its first `Initialize`. -/
def sink : TopologyConfig :=
  { fTopPrefix := topPrefix, fServiceName := "Sink".toList, fId := "Sink-0".toList }

/-- A registry with the sink's endpoint, whose mark the user may have set, a link
to a present sampler, and the sink's host address. -/
def sinkRegistry (marked : Bool) : Db :=
  let endpoint := hset ∅ "daq_service:topology:endpoint:Sink:in".toList
    [(Field.text .method, "bind".toList), (Field.text .bound, flagText marked)]
  let declared := set endpoint "daq_service:topology:link:Sampler:out,Sink:in".toList []
  let present := set declared (presenceKey "Sampler".toList "Sampler-0".toList) []
  hset present (healthKey "Sink".toList "Sink-0".toList) [("hostIp".toList, "10.0.0.1".toList)]

/-- The address of the sink's sub-socket. -/
def sinkProperties : Properties :=
  AList.singleton (localKey "in".toList 0 ++ ".address".toList) "tcp://*:5555".toList

theorem sink_initializeChannels (marked : Bool) :
    (sink.initializeChannels (sinkRegistry marked)).isSome := by
  cases marked <;> decide +kernel

theorem sink_subSockets : SubSockets sinkProperties "in".toList 1 := by
  constructor
  · intro index below
    obtain rfl : index = 0 := by omega
    exact List.mem_singleton_self _
  · intro name member isPrefix
    obtain rfl : name = localKey "in".toList 0 ++ ".address".toList :=
      List.mem_singleton.mp member
    exact ⟨0, Nat.zero_lt_one, by decide +kernel⟩

theorem sink_instanceName : InstanceName sink.fServiceName sink.fId :=
  ⟨by decide, by decide, by decide, by decide⟩

theorem sink_unpublished (marked : Bool) :
    Unpublished (sinkRegistry marked) sink.fServiceName sink.fId := by
  have keys : ∀ key ∈ (sinkRegistry marked).keys,
      ¬ area sink.fServiceName sink.fId channelPrefix <+: key ∧
        ¬ area sink.fServiceName sink.fId socketPrefix <+: key := by
    cases marked <;> decide +kernel
  exact fun key member => keys key (AList.mem_keys.mp member)

/-- When the user sets the mark in the endpoint, the connector sees it after the
first command, before any sub-socket. -/
theorem mark_of_endpoint_not_published :
    sink.Standard ∧ InstanceName sink.fServiceName sink.fId ∧
      Unpublished (sinkRegistry true) sink.fServiceName sink.fId ∧
      SubSockets sinkProperties "in".toList 1 ∧
      ∃ config' db' configured, sink.initializeChannels (sinkRegistry true) =
          some (config', db', configured) ∧
        ∃ views, Observes views (sinkRegistry true)
            (publication config' configured sinkProperties) ∧
          isBound (views 0).registry
            (instanceChannelKey sink.fServiceName sink.fId "in".toList) = true ∧
          hget (views 0).registry (instanceSocketKey sink.fServiceName sink.fId "in".toList 0)
            (Field.text .address) = none := by
  obtain ⟨⟨config', db', configured⟩, initialized⟩ :=
    Option.isSome_iff_exists.mp (sink_initializeChannels true)
  refine ⟨⟨rfl, rfl⟩, sink_instanceName, sink_unpublished true, sink_subSockets, config', db',
    configured, initialized,
    fun _ => ⟨execAll (sinkRegistry true)
      ((publication config' configured sinkProperties).take 1), false⟩,
    ⟨fun _ => 1, monotone_const, fun _ => rfl⟩, ?_⟩
  have first : (sink.initializeChannels (sinkRegistry true)).map (fun result =>
      (isBound (execAll (sinkRegistry true)
        ((publication result.1 result.2.2 sinkProperties).take 1))
        (instanceChannelKey sink.fServiceName sink.fId "in".toList),
      hget (execAll (sinkRegistry true)
        ((publication result.1 result.2.2 sinkProperties).take 1))
        (instanceSocketKey sink.fServiceName sink.fId "in".toList 0) (Field.text .address))) =
      some (true, none) := by
    decide +kernel
  rw [initialized] at first
  exact Prod.mk.inj (Option.some.inj first)

/-- The addresses of three sub-sockets of the sink. -/
def sinkPorts : Properties :=
  (List.range 3).foldl (fun properties index =>
    properties.insert (localKey "in".toList index ++ ".address".toList)
      ("tcp://*:555".toList ++ Text.decimal index)) ∅

theorem sinkPorts_subSockets : SubSockets sinkPorts "in".toList 3 := by
  have names : ∀ name ∈ sinkPorts.keys,
      ∃ index < 3, localKey "in".toList index ++ ['.'] <+: name := by
    decide +kernel
  constructor
  · decide +kernel
  · exact fun name member _ => names name (AList.mem_keys.mp member)

/-- Without the user's mark, the sink's sub-sockets are found as soon as the channel is
bound. There is a view behind each of the eleven commands, and the mark comes with the last
one. -/
theorem isBound_sink_published : ∃ views : Nat → View,
    isBound (views 10).registry
        (instanceChannelKey sink.fServiceName sink.fId "in".toList) = false ∧
      isBound (views 11).registry
        (instanceChannelKey sink.fServiceName sink.fId "in".toList) = true ∧
      ∃ addresses, sink.readPeerAddress views 11
          (instanceChannelKey sink.fServiceName sink.fId "in".toList) = .ok (addresses, 16) ∧
        addresses.length = 3 := by
  obtain ⟨⟨config', db', configured⟩, initialized⟩ :=
    Option.isSome_iff_exists.mp (sink_initializeChannels false)
  let commands := publication config' configured sinkPorts
  let views (time : Nat) : View := ⟨execAll (sinkRegistry false) (commands.take time), false⟩
  have marked : isBound (views 10).registry
        (instanceChannelKey sink.fServiceName sink.fId "in".toList) = false ∧
      isBound (views 11).registry
        (instanceChannelKey sink.fServiceName sink.fId "in".toList) = true := by
    have shown : (sink.initializeChannels (sinkRegistry false)).map (fun result =>
        [10, 11].map fun time => isBound
          (execAll (sinkRegistry false) ((publication result.1 result.2.2 sinkPorts).take time))
          (instanceChannelKey sink.fServiceName sink.fId "in".toList)) = some [false, true] := by
      decide +kernel
    rw [initialized] at shown
    have each := List.cons.inj (Option.some.inj shown)
    exact ⟨each.1, (List.cons.inj each.2).1⟩
  have endpointNames (channel : Text) (member : sink.endpointKey channel ∈ sinkRegistry false) :
      Name channel := by
    have names : ∀ key ∈ (sinkRegistry false).keys, sink.endpointKey [] <+: key →
        Name (key.drop (sink.endpointKey []).length) := by
      decide +kernel
    rw [endpointKey_append] at member
    exact name_of_keys names member
  refine ⟨views, marked.1, marked.2, ?_⟩
  exact (isBound_subSockets_published ⟨rfl, rfl⟩ sink_instanceName rfl rfl (sink_unpublished false)
    endpointNames (by simp [sink]) (show hget _ _ _ = some "10.0.0.1".toList by decide +kernel)
    (by decide) sinkPorts_subSockets (by decide +kernel) initialized
    ⟨id, monotone_id, fun _ => rfl⟩ marked.2).2 sink ⟨rfl, rfl⟩ 11 (Nat.le_refl _)

end TopologyConfig

end NestDaq.Topology
