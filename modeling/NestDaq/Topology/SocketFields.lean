import NestDaq.Topology.Resolve

/-!
# Fields of sub-sockets

`WriteAddress` finds the properties of a sub-socket by the text in front of them.
That text ends in the decimal index, so it is also in front of the properties of
every sub-socket whose index has the same digits and more behind them, and the
last of these in key order gives the fields of the hash.
-/

namespace NestDaq.Topology

open NestDaq.Store
open NestDaq.Registry

/-- The name of a property of a sub-socket: `chans.<channel>.<index>.<field>`. -/
def fieldKey (channel : Text) (index : Nat) (field : Text) : Text :=
  localKey channel index ++ '.' :: field

/-- The part of a property name behind its last dot. -/
def lastPart (name : Text) : Text :=
  Text.substrFrom name (Text.after (Text.findLastOf name ['.']))

/-- The properties of a channel are those of its sub-sockets, which have the
indices below a number. -/
structure Sockets (properties : Properties) (channel : Text) (count : Nat) : Prop where
  present : ∀ index < count, ∃ field, fieldKey channel index field ∈ properties
  only : ∀ name ∈ properties, chansPrefix ++ '.' :: (channel ++ ['.']) <+: name →
    ∃ index < count, ∃ field, name = fieldKey channel index field

/-- The fields that `WriteAddress` takes from the channel, not from the sub-socket. -/
def IsSetting (field : Text) : Prop :=
  field = Field.text .numSockets ∨ field = Field.text .autoSubChannel

instance (field : Text) : Decidable (IsSetting field) :=
  inferInstanceAs (Decidable (_ ∨ _))

/-- Among the sub-sockets whose index begins with the digits of another and that
have some field, one is the last in key order. -/
structure LastWith (properties : Properties) (channel : Text) (index : Nat) (field : Text)
    (last : Nat) : Prop where
  digits : Text.decimal index <+: Text.decimal last
  present : fieldKey channel last field ∈ properties
  greatest : ∀ other, Text.decimal index <+: Text.decimal other →
    fieldKey channel other field ∈ properties →
    fieldKey channel other field ≤ fieldKey channel last field

/-- No field is lost at a dot, and the sub-socket that is last has the value of
the one whose index it begins with. -/
def Distinguished (properties : Properties) (channel : Text) : Prop :=
  ∀ index field, fieldKey channel index field ∈ properties → ¬ IsSetting field →
    '.' ∉ field ∧ ∀ last, LastWith properties channel index field last →
      properties.lookup (fieldKey channel last field) =
        properties.lookup (fieldKey channel index field)

theorem localKey_eq (channel : Text) (index : Nat) :
    localKey channel index = (chansPrefix ++ '.' :: (channel ++ ['.'])) ++ Text.decimal index := by
  simp [localKey]

theorem fieldKey_eq (channel : Text) (index : Nat) (field : Text) :
    fieldKey channel index field =
      (chansPrefix ++ '.' :: (channel ++ ['.'])) ++ (Text.decimal index ++ '.' :: field) := by
  simp [fieldKey, localKey]

/-- Sub-sockets of channels without dots have different names. -/
theorem localKey_injective {channel other : Text} (channelFree : '.' ∉ channel)
    (otherFree : '.' ∉ other) {index otherIndex : Nat}
    (same : localKey channel index = localKey other otherIndex) :
    channel = other ∧ index = otherIndex := by
  have parts : channel ++ '.' :: Text.decimal index = other ++ '.' :: Text.decimal otherIndex := by
    simpa [localKey] using same
  obtain ⟨sameChannel, digits⟩ := Text.append_separator_inj channelFree otherFree parts
  exact ⟨sameChannel, Text.decimal_injective digits⟩

/-- The digits of an index begin those of every sub-socket found for it. -/
theorem decimal_prefix_of_localKey_prefix {channel : Text} {index other : Nat} {field : Text}
    (isPrefix : localKey channel index <+: fieldKey channel other field) :
    Text.decimal index <+: Text.decimal other := by
  rw [localKey_eq, fieldKey_eq, List.prefix_append_right_inj] at isPrefix
  obtain ⟨tail, split⟩ := isPrefix
  exact Text.prefix_of_append_separator (Text.dot_notMem_decimal index) split

theorem localKey_prefix_fieldKey {channel : Text} {index other : Nat}
    (digits : Text.decimal index <+: Text.decimal other) (field : Text) :
    localKey channel index <+: fieldKey channel other field := by
  rw [localKey_eq, fieldKey_eq, List.prefix_append_right_inj]
  exact digits.trans (List.prefix_append _ _)

theorem forall_notMem_dot {text : Text} (free : '.' ∉ text) : ∀ char ∈ text, char ∉ ['.'] := by
  intro char member isDot
  obtain rfl := List.mem_singleton.mp isDot
  exact free member

theorem lastPart_append_cons (front : Text) {field : Text} (free : '.' ∉ field) :
    lastPart (front ++ '.' :: field) = field := by
  rw [lastPart, Text.findLastOf_append_cons List.mem_cons_self (forall_notMem_dot free)]
  exact Text.substrFrom_separator _ _ _

theorem dot_notMem_lastPart (name : Text) : '.' ∉ lastPart name := by
  by_cases dotted : '.' ∈ name
  · obtain ⟨front, back, free, rfl⟩ : ∃ front back, '.' ∉ back ∧ name = front ++ '.' :: back := by
      have reversed : '.' ∈ name.reverse := List.mem_reverse.mpr dotted
      obtain ⟨front, back, split, free⟩ := List.eq_append_cons_of_mem reversed
      refine ⟨back.reverse, front.reverse, fun member => free (List.mem_reverse.mp member), ?_⟩
      rw [← List.reverse_reverse name, split]
      simp
    rw [lastPart_append_cons front free]
    exact free
  · rw [lastPart, Text.findLastOf_of_notMem (forall_notMem_dot dotted)]
    exact dotted

theorem IsSetting.dotFree {field : Text} (setting : IsSetting field) : '.' ∉ field := by
  rcases setting with rfl | rfl <;> decide

variable {properties : Properties} {channel : Text} {count : Nat}

theorem mem_propertiesStartingWith {q name value : Text} :
    (name, value) ∈ propertiesStartingWith properties q ↔
      properties.lookup name = some value ∧ q <+: name := by
  rw [propertiesStartingWith, List.mem_filter, mem_ordered, List.isPrefixOf_iff_prefix]

theorem Sockets.lt_of_mem (sockets : Sockets properties channel count) {index : Nat} {field : Text}
    (present : fieldKey channel index field ∈ properties) : index < count := by
  obtain ⟨other, below, otherField, same⟩ := sockets.only _ present
    (fieldKey_eq channel index field ▸ List.prefix_append _ _)
  rw [fieldKey_eq, fieldKey_eq, List.append_cancel_left_eq] at same
  obtain ⟨digits, -⟩ := Text.append_separator_inj (Text.dot_notMem_decimal _)
    (Text.dot_notMem_decimal _) same
  rwa [Text.decimal_injective digits]

/-- What the query for a sub-socket returns. -/
theorem Sockets.exists_of_mem (sockets : Sockets properties channel count) {index : Nat}
    {name value : Text}
    (member : (name, value) ∈ propertiesStartingWith properties (localKey channel index)) :
    ∃ other < count, Text.decimal index <+: Text.decimal other ∧
      ∃ field, name = fieldKey channel other field := by
  obtain ⟨found, isPrefix⟩ := mem_propertiesStartingWith.mp member
  have inProperties : name ∈ properties :=
    AList.lookup_isSome.mp (Option.isSome_iff_exists.mpr ⟨value, found⟩)
  obtain ⟨other, below, field, rfl⟩ := sockets.only name inProperties
    ((localKey_eq channel index ▸ List.prefix_append _ _).trans isPrefix)
  exact ⟨other, below, decimal_prefix_of_localKey_prefix isPrefix, field, rfl⟩

/-- The loop of `WriteAddress` ends after all sub-sockets and no others. -/
theorem Sockets.subSocketCount_eq (sockets : Sockets properties channel count) :
    subSocketCount properties channel = count := by
  rw [subSocketCount, Nat.find_eq_iff]
  constructor
  · apply List.eq_nil_iff_forall_not_mem.mpr
    rintro ⟨name, value⟩ member
    obtain ⟨other, below, digits, -⟩ := sockets.exists_of_mem member
    exact absurd (Text.le_of_decimal_prefix digits) (Nat.not_le_of_lt below)
  · intro index below none
    obtain ⟨field, present⟩ := sockets.present index below
    obtain ⟨value, found⟩ := Option.isSome_iff_exists.mp (AList.lookup_isSome.mpr present)
    have member := mem_propertiesStartingWith.mpr
      ⟨found, localKey_prefix_fieldKey (List.prefix_refl (Text.decimal index)) field⟩
    exact List.not_mem_nil (none ▸ member)

/-! ## The fields of one hash -/

section Lists

variable {α : Type*} {property : α → Prop}

/-- The last element with a property. -/
theorem exists_last {items : List α} (found : ∃ item ∈ items, property item) :
    ∃ earlier last later, items = earlier ++ last :: later ∧ property last ∧
      ∀ item ∈ later, ¬ property item := by
  induction items with
  | nil => simp at found
  | cons item items ih =>
      by_cases inRest : ∃ other ∈ items, property other
      · obtain ⟨earlier, last, later, rfl, holds, none⟩ := ih inRest
        exact ⟨item :: earlier, last, later, rfl, holds, none⟩
      · refine ⟨[], item, items, rfl, ?_, fun other member holds => inRest ⟨other, member, holds⟩⟩
        rcases found with ⟨other, member, holds⟩
        rcases List.mem_cons.mp member with rfl | member
        · exact holds
        · exact absurd ⟨other, member, holds⟩ inRest

end Lists

/-- The query returns the properties in key order. -/
theorem pairwise_propertiesStartingWith (q : Text) :
    (propertiesStartingWith properties q).Pairwise fun first second => first.1 < second.1 := by
  have keys := pairwise_lt_keys_ordered properties
  rw [List.pairwise_map] at keys
  exact keys.filter _

variable {sp : SocketProperty}

theorem subSocketFields_eq (chans : List (Text × Text)) :
    TopologyConfig.subSocketFields sp chans =
      setFields (setFields ∅ (chans.map fun property => (lastPart property.1, property.2)))
        [(Field.text .numSockets, Text.toString sp.numSockets),
          (Field.text .autoSubChannel, flagText sp.autoSubChannel)] :=
  List.foldl_append

theorem lookup_subSocketFields_of_not_isSetting {field : Text} (other : ¬ IsSetting field)
    (chans : List (Text × Text)) :
    (TopologyConfig.subSocketFields sp chans).lookup field =
      (setFields ∅ (chans.map fun property => (lastPart property.1, property.2))).lookup field := by
  rw [subSocketFields_eq, lookup_setFields_of_notMem]
  intro member
  exact other (by simpa [IsSetting] using member)

theorem lookup_subSocketFields_settings (chans : List (Text × Text)) :
    (TopologyConfig.subSocketFields sp chans).lookup (Field.text .numSockets) =
        some (Text.toString sp.numSockets) ∧
      (TopologyConfig.subSocketFields sp chans).lookup (Field.text .autoSubChannel) =
        some (flagText sp.autoSubChannel) := by
  rw [subSocketFields_eq]
  constructor <;> apply lookup_setFields_of_mem <;> simp <;> decide

/-- Without dots in the fields, a field of the hash is that of the sub-socket which
is last among those that the query finds. -/
theorem Sockets.exists_lookup_subSocketFields (sockets : Sockets properties channel count)
    (dotFree : ∀ other field, fieldKey channel other field ∈ properties → ¬ IsSetting field →
      '.' ∉ field)
    {index : Nat} {field : Text} (present : fieldKey channel index field ∈ properties)
    (other : ¬ IsSetting field) :
    ∃ last, LastWith properties channel index field last ∧
      (TopologyConfig.subSocketFields sp
        (propertiesStartingWith properties (localKey channel index))).lookup field =
          properties.lookup (fieldKey channel last field) := by
  have free := dotFree index field present other
  have inQuery {third : Nat} (digits : Text.decimal index <+: Text.decimal third)
      (inProperties : fieldKey channel third field ∈ properties) :
      ∃ value, (fieldKey channel third field, value) ∈
        propertiesStartingWith properties (localKey channel index) := by
    obtain ⟨value, found⟩ := Option.isSome_iff_exists.mp (AList.lookup_isSome.mpr inProperties)
    exact ⟨value, mem_propertiesStartingWith.mpr ⟨found, localKey_prefix_fieldKey digits field⟩⟩
  obtain ⟨value, member⟩ := inQuery (List.prefix_refl _) present
  obtain ⟨earlier, ⟨name, value⟩, later, split, holds, none⟩ :=
    @exists_last _ (fun property : Text × Text => lastPart property.1 = field)
      (propertiesStartingWith properties (localKey channel index))
      ⟨_, member, lastPart_append_cons _ free⟩
  have inChans : (name, value) ∈ propertiesStartingWith properties (localKey channel index) := by
    rw [split]
    exact List.mem_append_right _ List.mem_cons_self
  obtain ⟨last, -, digits, lastField, rfl⟩ := sockets.exists_of_mem inChans
  have found := (mem_propertiesStartingWith.mp inChans).1
  have inProperties : fieldKey channel last lastField ∈ properties :=
    AList.lookup_isSome.mp (Option.isSome_iff_exists.mpr ⟨value, found⟩)
  have lastFree : '.' ∉ lastField := by
    by_cases setting : IsSetting lastField
    · exact setting.dotFree
    · exact dotFree last lastField inProperties setting
  obtain rfl : lastField = field := (lastPart_append_cons _ lastFree).symm.trans holds
  refine ⟨last, ⟨digits, inProperties, ?_⟩, ?_⟩
  · intro third thirdDigits thirdPresent
    obtain ⟨thirdValue, thirdMember⟩ := inQuery thirdDigits thirdPresent
    have sorted := @pairwise_propertiesStartingWith properties (localKey channel index)
    rw [split] at thirdMember sorted
    rcases List.mem_append.mp thirdMember with before | behind
    · exact ((List.pairwise_append.mp sorted).2.2 _ before _ List.mem_cons_self).le
    · rcases List.mem_cons.mp behind with same | behind
      · exact (Prod.mk.inj same).1.le
      · exact absurd (lastPart_append_cons _ free) (none _ behind)
  · rw [found, lookup_subSocketFields_of_not_isSetting other, split, List.map_append,
      List.map_cons, show lastPart (fieldKey channel last lastField) = lastField from holds]
    apply lookup_setFields_append_cons
    intro again
    obtain ⟨entry, written, same⟩ := List.mem_map.mp again
    obtain ⟨property, inLater, rfl⟩ := List.mem_map.mp written
    exact none property inLater same

/-- With at most ten sub-sockets no index begins with the digits of another. -/
theorem Sockets.distinguished_of_le_ten (sockets : Sockets properties channel count)
    (few : count ≤ 10)
    (dotFree : ∀ index field, fieldKey channel index field ∈ properties → ¬ IsSetting field →
      '.' ∉ field) :
    Distinguished properties channel := by
  intro index field present other
  refine ⟨dotFree index field present other, fun last isLast => ?_⟩
  have oneDigit : (Text.decimal last).length ≤ 1 := by
    rw [Text.decimal, Nat.length_toDigits_le_iff (by decide) Nat.one_pos]
    exact (sockets.lt_of_mem isLast.present).trans_le few
  have someDigit : 0 < (Text.decimal index).length :=
    List.length_pos_iff.mpr (Text.decimal_ne_nil index)
  have same : Text.decimal index = Text.decimal last :=
    isLast.digits.eq_of_length_le (oneDigit.trans someDigit)
  rw [Text.decimal_injective same]

/-- The fields of a hash have no dots. -/
theorem dot_notMem_of_mem_subSocketFields {chans : List (Text × Text)} {field : Text}
    (member : field ∈ TopologyConfig.subSocketFields sp chans) : '.' ∉ field := by
  rw [subSocketFields_eq, mem_setFields, mem_setFields] at member
  rcases member with setting | written | absent
  · exact IsSetting.dotFree (by simpa [IsSetting] using setting)
  · obtain ⟨property, member, rfl⟩ := List.mem_map.mp written
    obtain ⟨property, -, rfl⟩ := List.mem_map.mp member
    exact dot_notMem_lastPart _
  · exact absurd absent (AList.notMem_empty _)

/-! ## The hashes in the registry -/

namespace TopologyConfig

variable {config : TopologyConfig} {channels : MQChannel} {f : Text → List Command}

/-- The two functions `WriteAddress` is called with. -/
def Follows (config : TopologyConfig) (f : Text → List Command) : Prop :=
  f = config.markBound ∨ f = fun _ => []

theorem socketKey_injective {other : Text} (channelFree : '.' ∉ channel) (otherFree : '.' ∉ other)
    {index otherIndex : Nat}
    (same : config.socketKey channel index = config.socketKey other otherIndex) :
    channel = other ∧ index = otherIndex := by
  apply localKey_injective channelFree otherFree
  simpa [socketKey, key] using same

theorem socketKey_ne_channelKey (index : Nat) (other : Text) :
    config.socketKey channel index ≠ config.channelKey other := by
  intro same
  have tails : socketPrefix ++ (config.fSeparator ++ localKey channel index) =
      channelPrefix ++ (config.fSeparator ++ other) := by
    simpa [socketKey, channelKey, key] using same
  exact absurd (List.cons.inj tails).1 (by decide)

/-- The commands under the key of a sub-socket are those of the sub-socket. -/
theorem mem_writeSubSocket_of_key
    (keyed : ∀ name sp, channels.lookup name = some sp → sp.name = name ∧ '.' ∉ name)
    (found : channels.lookup channel = some sp) (follows : config.Follows f) {index : Nat}
    {command : Command} (member : command ∈ config.writeAddress properties channels f)
    (addressed : config.socketKey channel index = command.key) :
    index < subSocketCount properties channel ∧
      command ∈ config.writeSubSocket properties sp index := by
  obtain ⟨⟨name, other⟩, entry, written⟩ := List.mem_flatMap.mp member
  obtain ⟨named, nameFree⟩ := keyed name other (mem_ordered.mp entry)
  obtain ⟨-, channelFree⟩ := keyed channel sp found
  rcases List.mem_append.mp written with inSubs | inFollows
  · obtain ⟨otherIndex, below, written⟩ := List.mem_flatMap.mp inSubs
    have ofSub : command.key = config.socketKey other.name otherIndex := by
      simp only [writeSubSocket, List.mem_cons, List.not_mem_nil, or_false] at written
      rcases written with rfl | rfl <;> rfl
    obtain ⟨rfl, rfl⟩ := socketKey_injective channelFree (named.symm ▸ nameFree)
      (addressed.trans ofSub)
    rw [← named] at entry
    obtain rfl := Option.some.inj (found.symm.trans (mem_ordered.mp entry))
    exact ⟨List.mem_range.mp below, written⟩
  · rcases follows with rfl | rfl
    · obtain rfl := List.mem_singleton.mp inFollows
      exact absurd addressed (socketKey_ne_channelKey index name)
    · exact absurd inFollows List.not_mem_nil

/-- What the registry has to hold for the sub-sockets of a channel after `WriteAddress`. -/
structure Published (config : TopologyConfig) (properties : Properties) (sp : SocketProperty)
    (count : Nat) (before after : Db) : Prop where
  terminates : subSocketCount properties sp.name = count
  beyond : ∀ index, count ≤ index →
    after.lookup (config.socketKey sp.name index) = before.lookup (config.socketKey sp.name index)
  fields : ∀ index < count, ∀ field value,
    properties.lookup (fieldKey sp.name index field) = some value → ¬ IsSetting field →
    hget after (config.socketKey sp.name index) field = some value
  numSockets : ∀ index < count, hget after (config.socketKey sp.name index)
    (Field.text .numSockets) = some (Text.toString sp.numSockets)
  autoSubChannel : ∀ index < count, hget after (config.socketKey sp.name index)
    (Field.text .autoSubChannel) = some (flagText sp.autoSubChannel)

/-- The keys of a channel's sub-sockets hold hashes or nothing. -/
def HashesOnly (config : TopologyConfig) (channel : Text) (db : Db) : Prop :=
  ∀ index value, db.lookup (config.socketKey channel index) = some value →
    ∃ fields, value = .hash fields

section Fields

variable (keyed : ∀ name sp, channels.lookup name = some sp → sp.name = name ∧ '.' ∉ name)
  (found : channels.lookup channel = some sp) (follows : config.Follows f)
  (sockets : Sockets properties channel count) (db : Db) {index : Nat}

include keyed found follows

theorem eq_of_key {command : Command}
    (member : command ∈ config.writeAddress properties channels f)
    (addressed : config.socketKey channel index = command.key) :
    command = .hset (config.socketKey channel index) (ordered (subSocketFields sp
        (propertiesStartingWith properties (localKey channel index)))) ∨
      command = .expire (config.socketKey channel index) := by
  obtain ⟨-, written⟩ := mem_writeSubSocket_of_key keyed found follows member addressed
  obtain ⟨rfl, -⟩ := keyed channel sp found
  simpa [writeSubSocket] using written

omit follows in
theorem hset_mem_writeAddress (below : index < subSocketCount properties channel) :
    Command.hset (config.socketKey channel index) (ordered (subSocketFields sp
        (propertiesStartingWith properties (localKey channel index)))) ∈
      config.writeAddress properties channels f := by
  obtain ⟨rfl, -⟩ := keyed channel sp found
  refine List.mem_flatMap.mpr ⟨_, mem_ordered.mpr found, List.mem_append_left _ ?_⟩
  exact List.mem_flatMap.mpr ⟨index, List.mem_range.mpr below, List.mem_cons_self⟩

/-- The hash of a sub-socket after `WriteAddress` has the fields of the sub-socket
over those it had before. -/
theorem hget_writeAddress (below : index < subSocketCount properties channel) (field : Text) :
    hget (execAll db (config.writeAddress properties channels f))
        (config.socketKey channel index) field =
      ((subSocketFields sp (propertiesStartingWith properties
        (localKey channel index))).lookup field).or
        (hget db (config.socketKey channel index) field) := by
  have same := fun command member => @eq_of_key properties channel _ config channels f keyed found
    follows index command member
  cases written : (subSocketFields sp (propertiesStartingWith properties
    (localKey channel index))).lookup field with
  | none =>
      refine (hget_execAll_of_notMem db ?_ same).trans (Option.none_or).symm
      rw [mem_keys_ordered, ← AList.lookup_isSome, written]
      exact Bool.false_ne_true
  | some value =>
      exact hget_execAll_of_mem db (nodup_keys_ordered _) (mem_ordered.mpr written) same
        (Or.inl (hset_mem_writeAddress keyed found below))

end Fields

/-- `WriteAddress` ends its index loop after the sub-sockets of a channel, writes no
hash behind them and gives each sub-socket the fields of its properties, if and only
if the last of the sub-sockets that a query finds is the one asked for, or does not
differ from it. -/
theorem writeAddress_published_iff
    (keyed : ∀ name sp, channels.lookup name = some sp → sp.name = name ∧ '.' ∉ name)
    (found : channels.lookup channel = some sp) (follows : config.Follows f)
    (sockets : Sockets properties channel count) :
    (∀ db, config.HashesOnly channel db →
      config.Published properties sp count db
        (execAll db (config.writeAddress properties channels f))) ↔
      Distinguished properties channel := by
  obtain ⟨rfl, -⟩ := keyed channel sp found
  have counted := sockets.subSocketCount_eq
  have hash (db : Db) {index : Nat} (below : index < count) :=
    hget_writeAddress keyed found follows db (counted.symm ▸ below)
  constructor
  · intro published
    have empty := published ∅ fun index value none => nomatch none
    have exact {index : Nat} {field value : Text}
        (stored : properties.lookup (fieldKey sp.name index field) = some value)
        (other : ¬ IsSetting field) :
        (subSocketFields sp (propertiesStartingWith properties
          (localKey sp.name index))).lookup field = some value := by
      have below := sockets.lt_of_mem
        (AList.lookup_isSome.mp (Option.isSome_iff_exists.mpr ⟨value, stored⟩))
      have written := empty.fields index below field value stored other
      rw [hash ∅ below] at written
      simpa [hget, hgetall] using written
    have dotFree : ∀ index field, fieldKey sp.name index field ∈ properties → ¬ IsSetting field →
        '.' ∉ field := by
      intro index field present other
      obtain ⟨value, stored⟩ := Option.isSome_iff_exists.mp (AList.lookup_isSome.mpr present)
      exact dot_notMem_of_mem_subSocketFields
        (AList.lookup_isSome.mp (Option.isSome_iff_exists.mpr ⟨value, exact stored other⟩))
    intro index field present other
    refine ⟨dotFree index field present other, fun last isLast => ?_⟩
    obtain ⟨value, stored⟩ := Option.isSome_iff_exists.mp (AList.lookup_isSome.mpr present)
    obtain ⟨greatest, isGreatest, written⟩ :=
      @Sockets.exists_lookup_subSocketFields _ _ _ sp sockets dotFree _ _ present other
    have same : fieldKey sp.name last field = fieldKey sp.name greatest field :=
      le_antisymm (isGreatest.greatest last isLast.digits isLast.present)
        (isLast.greatest greatest isGreatest.digits isGreatest.present)
    rw [same, ← written, exact stored other, stored]
  · intro distinguished db _
    have settings (index : Nat) := @lookup_subSocketFields_settings sp
      (propertiesStartingWith properties (localKey sp.name index))
    constructor
    · exact counted
    · intro index beyond
      apply lookup_execAll_of_notMem
      intro command member addressed
      have below := (mem_writeSubSocket_of_key keyed found follows member addressed).1
      exact absurd (counted ▸ below) (Nat.not_lt_of_le beyond)
    · intro index below field value stored other
      have present : fieldKey sp.name index field ∈ properties :=
        AList.lookup_isSome.mp (Option.isSome_iff_exists.mpr ⟨value, stored⟩)
      obtain ⟨last, isLast, found⟩ := @Sockets.exists_lookup_subSocketFields _ _ _ sp sockets
        (fun other field present setting => (distinguished other field present setting).1) _ _
        present other
      rw [hash db below, found, (distinguished index field present other).2 last isLast, stored,
        Option.some_or]
    · intro index below
      rw [hash db below, (settings index).1, Option.some_or]
    · intro index below
      rw [hash db below, (settings index).2, Option.some_or]

/-- The address of a sub-socket of a device whose sub-sockets have ports of their own. -/
def portAddress (index : Nat) : Text :=
  "tcp://127.0.0.1:2200".toList ++ Text.decimal index

/-- The properties of a channel of the device. -/
def portProperties (count : Nat) : Properties where
  entries := (List.range count).map fun index =>
    ⟨fieldKey "in".toList index "address".toList, portAddress index⟩
  nodupKeys := by
    rw [List.NodupKeys, List.keys, List.map_map]
    apply List.nodup_range.map
    intro first second same
    simp only [Function.comp_apply, fieldKey_eq, List.append_cancel_left_eq,
      List.append_cancel_right_eq] at same
    exact Text.decimal_injective same

theorem mem_portProperties {count : Nat} {name : Text} (member : name ∈ portProperties count) :
    ∃ index < count, name = fieldKey "in".toList index "address".toList := by
  obtain ⟨entry, inEntries, rfl⟩ := List.mem_map.mp (AList.mem_keys.mp member)
  obtain ⟨index, below, rfl⟩ := List.mem_map.mp inEntries
  exact ⟨index, List.mem_range.mp below, rfl⟩

theorem sockets_portProperties (count : Nat) :
    Sockets (portProperties count) "in".toList count where
  present index below :=
    ⟨"address".toList, AList.mem_keys.mpr (List.mem_map.mpr
      ⟨_, List.mem_map.mpr ⟨index, List.mem_range.mpr below, rfl⟩, rfl⟩)⟩
  only name member _ := by
    obtain ⟨index, below, rfl⟩ := mem_portProperties member
    exact ⟨index, below, "address".toList, rfl⟩

/-- A channel of the device. -/
def portChannel (count : Nat) : SocketProperty :=
  { name := "in".toList, method := "bind".toList, numSockets := count }

def portConfig (count : Nat) : TopologyConfig :=
  { fTopPrefix := topPrefix, fServiceName := "Sink".toList, fId := "Sink-0".toList,
    fBindChannels := AList.singleton "in".toList (portChannel count) }

theorem keyed_portConfig (count : Nat) : ∀ name sp,
    (portConfig count).fBindChannels.lookup name = some sp → sp.name = name ∧ '.' ∉ name := by
  intro name sp found
  have member : name ∈ (portConfig count).fBindChannels :=
    AList.lookup_isSome.mp (Option.isSome_iff_exists.mpr ⟨sp, found⟩)
  obtain rfl : name = "in".toList := List.mem_singleton.mp (AList.mem_keys.mp member)
  obtain rfl : portChannel count = sp := Option.some.inj found
  exact ⟨rfl, by decide⟩

/-- Two sub-sockets are published with what is theirs. -/
theorem portConfig_published :
    Distinguished (portProperties 2) "in".toList ∧
      ∀ db, (portConfig 2).HashesOnly "in".toList db →
        (portConfig 2).Published (portProperties 2) (portChannel 2) 2 db
          (execAll db ((portConfig 2).writeBindAddress (portProperties 2))) := by
  have distinguished : Distinguished (portProperties 2) "in".toList := by
    apply (sockets_portProperties 2).distinguished_of_le_ten (by decide)
    intro index field present _
    obtain ⟨other, -, same⟩ := mem_portProperties present
    rw [fieldKey_eq, fieldKey_eq, List.append_cancel_left_eq] at same
    obtain ⟨-, rfl⟩ := Text.append_separator_inj (Text.dot_notMem_decimal index)
      (Text.dot_notMem_decimal other) same
    decide
  exact ⟨distinguished, (writeAddress_published_iff (keyed_portConfig 2) rfl (Or.inl rfl)
    (sockets_portProperties 2)).mpr distinguished⟩

/-- The query for sub-socket 1 also finds sub-socket 10, and the hash of the first
has the address of the other. -/
theorem elevenConfig_not_published :
    ¬ ∀ db, (portConfig 11).HashesOnly "in".toList db →
      (portConfig 11).Published (portProperties 11) (portChannel 11) 11 db
        (execAll db ((portConfig 11).writeBindAddress (portProperties 11))) := by
  intro published
  have exact := (published ∅ fun index value none => nomatch none).fields 1 (by decide)
    "address".toList (portAddress 1) (by decide +kernel) (by decide)
  have below : 1 < subSocketCount (portProperties 11) "in".toList :=
    (sockets_portProperties 11).subSocketCount_eq.symm ▸ (by decide)
  have written := (hget_writeAddress (keyed_portConfig 11) rfl
    (Or.inl rfl) ∅ below _).symm.trans exact
  revert written
  decide +kernel

end TopologyConfig

end NestDaq.Topology
