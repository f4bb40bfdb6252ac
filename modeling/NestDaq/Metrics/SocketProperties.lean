import NestDaq.Text.Split
import NestDaq.Topology.SocketFields

/-!
# Socket properties of the metrics

`InitializeSocketProperties` reads the channel properties of the device into one socket
for each sub-channel. It makes the socket when it meets the first property of the
sub-channel, in the order of the keys, and does not look at the value of that one.
-/

namespace NestDaq.Metrics

open NestDaq.Store
open NestDaq.Topology

/-- The sockets of the sub-channels by name. -/
abbrev SocketProperties := AList fun _ : Text => SocketProperty

/-- `<channel>[<index>]`. -/
def socketName (channel index : Text) : Text :=
  channel ++ ['['] ++ index ++ [']']

/-- The value of one property for a socket; `none` when `stoi` throws. -/
def decodeField (p : SocketProperty) (field v : Text) : Option SocketProperty :=
  match Field.ofText field with
  | some .type => some { p with type := v }
  | some .method => some { p with method := v }
  | some .address => some { p with address := v }
  | some .transport => some { p with transport := v }
  | some .sndBufSize => (Text.stoi v).map fun n => { p with sndBufSize := n }
  | some .rcvBufSize => (Text.stoi v).map fun n => { p with rcvBufSize := n }
  | some .sndKernelSize => (Text.stoi v).map fun n => { p with sndKernelSize := n }
  | some .rcvKernelSize => (Text.stoi v).map fun n => { p with rcvKernelSize := n }
  | some .linger => (Text.stoi v).map fun n => { p with linger := n }
  | some .rateLogging => (Text.stoi v).map fun n => { p with rateLogging := n }
  | some .portRangeMin => (Text.stoi v).map fun n => { p with portRangeMin := n }
  | some .portRangeMax => (Text.stoi v).map fun n => { p with portRangeMax := n }
  | some .autoBind => some { p with autoBind := v = "true".toList || v = ['1'] }
  | _ => some p

/-- One property; a key with less than four parts is reported and ignored. -/
def initializeSocketProperty (fSocketProperties : SocketProperties) (property : Text × Text) :
    Option SocketProperties :=
  match Text.splitCompress property.1 ['.'] with
  | _ :: channel :: index :: field :: _ =>
      let name := socketName channel index
      let p := (fSocketProperties.lookup name).getD {}
      if p.name = [] then some (fSocketProperties.insert name { p with name := name })
      else (decodeField p field property.2).map (fSocketProperties.insert name)
  | _ => some fSocketProperties

/-- `InitializeSocketProperties`; `none` when it throws. -/
def initializeSocketProperties (properties : Properties) : Option SocketProperties :=
  (propertiesStartingWith properties "chans.".toList).foldlM initializeSocketProperty ∅

/-- The fields that the metrics read. -/
def decodedFields : List Field :=
  [.type, .method, .address, .transport, .sndBufSize, .rcvBufSize, .sndKernelSize,
    .rcvKernelSize, .linger, .rateLogging, .portRangeMin, .portRangeMax, .autoBind]

/-- The text that a value gives to a field. -/
def decodeText (field : Field) (v : Text) : Option Text :=
  (decodeField {} field.text v).map (fieldText · field)

/-- The test of the metrics for a flag, which does not ignore the case. -/
def exactFlag (v : Text) : Bool :=
  v = "true".toList || v = ['1']

theorem decodeField_text {p : SocketProperty} {field : Field} {v : Text} :
    decodeField p field.text v =
      if field ∈ decodedFields then
        if field = .autoBind then some { p with autoBind := exactFlag v } else assign p v field
      else some p := by
  rw [decodeField, Field.ofText_text]
  cases field <;> rfl

theorem decodeField_of_none {p : SocketProperty} {field v : Text}
    (unknown : Field.ofText field = none) :
    decodeField p field v = some p := by
  rw [decodeField, unknown]

/-- A field keeps its text when another one is read. -/
theorem fieldText_decodeField {p next : SocketProperty} {key v : Text} {field : Field}
    (differs : field.text ≠ key) (decoded : decodeField p key v = some next) :
    fieldText next field = fieldText p field := by
  cases known : Field.ofText key with
  | none =>
      rw [decodeField_of_none known] at decoded
      cases decoded
      rfl
  | some other =>
      rw [← Field.text_of_ofText known, decodeField_text] at decoded
      have apart : field ≠ other := by
        rintro rfl
        exact differs (Field.text_of_ofText known)
      split_ifs at decoded with reads isFlag
      · cases decoded
        subst isFlag
        cases field <;> first | rfl | exact absurd rfl apart
      · exact fieldText_assign_of_ne apart decoded
      · cases decoded
        rfl

/-- The text that a field gets does not depend on the socket. -/
theorem decodeText_of_decodeField {p next : SocketProperty} {field : Field} {v : Text}
    (reads : field ∈ decodedFields) (decoded : decodeField p field.text v = some next) :
    decodeText field v = some (fieldText next field) := by
  rw [decodeField_text, if_pos reads] at decoded
  rw [decodeText, decodeField_text, if_pos reads]
  split_ifs at decoded ⊢ with isFlag
  · cases decoded
    subst isFlag
    rfl
  · exact assign_fieldText_congr decoded {}

theorem decodeText_of_ne {field : Field} (reads : field ∈ decodedFields) (other : field ≠ .autoBind)
    (v : Text) : decodeText field v = (assign {} v field).map (fieldText · field) := by
  rw [decodeText, decodeField_text, if_pos reads, if_neg other]

theorem decodeText_autoBind (v : Text) :
    decodeText .autoBind v = some (flagText (exactFlag v)) :=
  rfl

/-- The parts of the key of a property. -/
theorem splitCompress_fieldKey {channel field : Text} (channelFree : '.' ∉ channel)
    (fieldFree : '.' ∉ field) (index : Nat) :
    Text.splitCompress (fieldKey channel index field) ['.'] =
      if channel = [] then [chansPrefix, Text.decimal index, field]
      else [chansPrefix, channel, Text.decimal index, field] := by
  have key : fieldKey channel index field =
      chansPrefix ++ '.' :: (channel ++ '.' :: (Text.decimal index ++ '.' :: field)) := by
    simp [fieldKey, localKey]
  rw [key, Text.splitCompress, Text.split_append_cons (by decide),
    Text.split_append_cons channelFree, Text.split_append_cons (Text.dot_notMem_decimal index),
    Text.split_of_notMem fieldFree]
  by_cases empty : channel = []
  · simp [Text.compress, empty, Text.decimal_ne_nil]
  · simp [Text.compress, empty, Text.decimal_ne_nil]

/-- Every channel property is one field of a sub-channel, and the numbers are numbers. -/
structure ChannelProperties (properties : Properties) : Prop where
  keys : ∀ key ∈ properties, "chans.".toList <+: key →
    ∃ channel index field, key = fieldKey channel index field ∧ '.' ∉ channel ∧ '.' ∉ field
  numbers : ∀ channel index field value,
    properties.lookup (fieldKey channel index (Field.text field)) = some value →
      ∃ sp, assign {} value field = some sp

/-- The names of different sub-channels are different. -/
theorem socketName_injective {channel other : Text} {index otherIndex : Nat}
    (same : socketName channel (Text.decimal index) = socketName other (Text.decimal otherIndex)) :
    channel = other ∧ index = otherIndex := by
  have bracketFree (number : Nat) : '[' ∉ Text.decimal number ++ [']'] := by
    rw [List.mem_append, not_or]
    constructor
    · intro member
      exact absurd (Text.isDigit_of_mem_decimal member) (by decide)
    · decide
  simp only [socketName, List.append_assoc, List.singleton_append] at same
  rcases Text.append_separator_inj_last (bracketFree index) (bracketFree otherIndex) same with
    ⟨sameChannel, numbers⟩
  exact ⟨sameChannel, Text.decimal_injective (List.append_cancel_right numbers)⟩

/-- The front of the keys of a sub-channel. -/
def subChannelPrefix (channel : Text) (index : Nat) : Text :=
  fieldKey channel index []

theorem fieldKey_eq_append (channel : Text) (index : Nat) (field : Text) :
    fieldKey channel index field = subChannelPrefix channel index ++ field := by
  simp [subChannelPrefix, fieldKey]

/-- A key has the front of its own sub-channel only. -/
theorem subChannelPrefix_prefix_iff {channel other field : Text} {index otherIndex : Nat}
    (channelFree : '.' ∉ channel) (otherFree : '.' ∉ other) :
    subChannelPrefix channel index <+: fieldKey other otherIndex field ↔
      channel = other ∧ index = otherIndex := by
  constructor
  · rintro ⟨rest, equal⟩
    have parts : channel ++ '.' :: (Text.decimal index ++ '.' :: rest) =
        other ++ '.' :: (Text.decimal otherIndex ++ '.' :: field) := by
      simpa [subChannelPrefix, fieldKey, localKey] using equal
    rcases Text.append_separator_inj channelFree otherFree parts with ⟨sameChannel, behind⟩
    rcases Text.append_separator_inj (Text.dot_notMem_decimal _) (Text.dot_notMem_decimal _)
      behind with ⟨numbers, _⟩
    exact ⟨sameChannel, Text.decimal_injective numbers⟩
  · rintro ⟨rfl, rfl⟩
    rw [fieldKey_eq_append]
    exact List.prefix_append _ _

/-- The fields of a sub-channel with their values, in the order of the fields. -/
def ownFields (properties : Properties) (channel : Text) (index : Nat) : List (Text × Text) :=
  (propertiesStartingWith properties (subChannelPrefix channel index)).map fun property =>
    (Text.substrFrom property.1 (subChannelPrefix channel index).length, property.2)

/-- The field map of a sub-channel. -/
def fieldMap (properties : Properties) (channel : Text) (index : Nat) : Hash :=
  setFields ∅ (ownFields properties channel index)

/-! ## The loop over the properties -/

/-- Sockets in the map have names. -/
def Named (fSocketProperties : SocketProperties) : Prop :=
  ∀ name p, fSocketProperties.lookup name = some p → p.name ≠ []

theorem decodeField_name {p next : SocketProperty} {key v : Text}
    (decoded : decodeField p key v = some next) : next.name = p.name := by
  by_cases isName : Field.text .name = key
  · rw [← isName, decodeField_text, if_neg (by decide)] at decoded
    cases decoded
    rfl
  · exact @fieldText_decodeField p next key v .name isName decoded

theorem socketName_ne_nil (channel index : Text) : socketName channel index ≠ [] := by
  simp [socketName]

/-- Whether a value is a number does not depend on the socket. -/
theorem exists_assign {sp : SocketProperty} {v : Text} {field : Field}
    (assigned : assign {} v field = some sp) (other : SocketProperty) :
    ∃ next, assign other v field = some next := by
  have again := assign_fieldText_congr assigned other
  cases result : assign other v field with
  | none =>
      rw [result] at again
      cases again
  | some next => exact ⟨next, rfl⟩

theorem exists_decodeField (p : SocketProperty) {key v : Text}
    (number : ∀ field, Field.ofText key = some field → ∃ sp, assign {} v field = some sp) :
    ∃ next, decodeField p key v = some next := by
  cases known : Field.ofText key with
  | none => exact ⟨p, decodeField_of_none known⟩
  | some field =>
      rw [← Field.text_of_ofText known, decodeField_text]
      rcases number field known with ⟨sp, assigned⟩
      split_ifs
      · exact ⟨_, rfl⟩
      · exact exists_assign assigned p
      · exact ⟨p, rfl⟩

/-- A property with a key of a sub-channel. -/
structure IsField (property : Text × Text) (channel : Text) (index : Nat) (field : Text) :
    Prop where
  key : property.1 = fieldKey channel index field
  channelFree : '.' ∉ channel
  fieldFree : '.' ∉ field

variable {fSocketProperties next : SocketProperties} {property : Text × Text}
  {channel other field : Text}
  {index otherIndex : Nat}

theorem initializeSocketProperty_eq (isField : IsField property channel index field)
    (nonempty : channel ≠ []) :
    initializeSocketProperty fSocketProperties property =
      let name := socketName channel (Text.decimal index)
      let p := (fSocketProperties.lookup name).getD {}
      if p.name = [] then some (fSocketProperties.insert name { p with name := name })
      else (decodeField p field property.2).map (fSocketProperties.insert name) := by
  rw [initializeSocketProperty, isField.key,
    splitCompress_fieldKey isField.channelFree isField.fieldFree, if_neg nonempty]

theorem initializeSocketProperty_of_nil (isField : IsField property [] index field) :
    initializeSocketProperty fSocketProperties property = some fSocketProperties := by
  rw [initializeSocketProperty, isField.key,
    splitCompress_fieldKey isField.channelFree isField.fieldFree, if_pos rfl]

/-- What a property of a sub-channel does to its socket. -/
def readField (name : Text) (known : Option SocketProperty) (field v : Text) :
    Option SocketProperty :=
  match known with
  | none => some { name := name }
  | some p => decodeField p field v

/-- One property changes the socket of its own sub-channel only. -/
theorem lookup_initializeSocketProperty (named : Named fSocketProperties)
    (isField : IsField property channel index field) (nonempty : channel ≠ [])
    (stepped : initializeSocketProperty fSocketProperties property = some next) (name : Text) :
    if name = socketName channel (Text.decimal index) then
      ∃ p, readField name (fSocketProperties.lookup name) field property.2 = some p ∧
        next.lookup name = some p
    else next.lookup name = fSocketProperties.lookup name := by
  rw [initializeSocketProperty_eq isField nonempty] at stepped
  simp only at stepped
  split_ifs with own
  · subst own
    cases known : fSocketProperties.lookup (socketName channel (Text.decimal index)) with
    | none =>
        rw [known] at stepped
        cases stepped
        exact ⟨_, rfl, AList.lookup_insert _⟩
    | some p =>
        rw [known, Option.getD_some, if_neg (named _ p known), Option.map_eq_some_iff] at stepped
        rcases stepped with ⟨q, decoded, rfl⟩
        exact ⟨q, decoded, AList.lookup_insert _⟩
  · split_ifs at stepped
    · cases stepped
      exact AList.lookup_insert_ne own
    · rw [Option.map_eq_some_iff] at stepped
      rcases stepped with ⟨q, _, rfl⟩
      exact AList.lookup_insert_ne own

theorem readField_name {name v : Text} {known : Option SocketProperty} {p : SocketProperty}
    (named : ∀ q, known = some q → q.name ≠ []) (nonempty : name ≠ [])
    (read : readField name known field v = some p) : p.name ≠ [] := by
  cases known with
  | none =>
      cases read
      exact nonempty
  | some q =>
      rw [decodeField_name read]
      exact named q rfl

/-- One property keeps the names. -/
theorem Named.step (named : Named fSocketProperties)
    (isField : IsField property channel index field)
    (stepped : initializeSocketProperty fSocketProperties property = some next) : Named next := by
  by_cases empty : channel = []
  · subst empty
    rw [initializeSocketProperty_of_nil isField] at stepped
    cases stepped
    exact named
  · intro name p found
    have looked := lookup_initializeSocketProperty named isField empty stepped name
    split_ifs at looked with own
    · rcases looked with ⟨q, read, lookup⟩
      rw [found] at lookup
      cases lookup
      exact readField_name (named name) (own ▸ socketName_ne_nil _ _) read
    · rw [looked] at found
      exact named name p found

/-- The loop reads the fields of a sub-channel one after the other. -/
def readFields (name : Text) : Option SocketProperty → List (Text × Text) →
    Option (Option SocketProperty)
  | known, [] => some known
  | known, (field, v) :: rest =>
      (readField name known field v).bind fun p => readFields name (some p) rest

/-- The properties of a sub-channel among others, by their fields. -/
def ownAmong (channel : Text) (index : Nat) (properties : List (Text × Text)) :
    List (Text × Text) :=
  (properties.filter fun property => (subChannelPrefix channel index).isPrefixOf property.1).map
    fun property => (Text.substrFrom property.1 (subChannelPrefix channel index).length, property.2)

theorem ownAmong_cons_of_eq {properties : List (Text × Text)}
    (isField : IsField property channel index field) :
    ownAmong channel index (property :: properties) =
      (field, property.2) :: ownAmong channel index properties := by
  have isOwn : (subChannelPrefix channel index).isPrefixOf property.1 = true := by
    rw [isField.key, fieldKey_eq_append, List.isPrefixOf_iff_prefix]
    exact List.prefix_append _ _
  rw [ownAmong, List.filter_cons, if_pos isOwn, List.map_cons, isField.key, fieldKey_eq_append,
    Text.substrFrom, List.drop_left, ownAmong]

theorem ownAmong_cons_of_ne {properties : List (Text × Text)}
    (isField : IsField property other otherIndex field) (channelFree : '.' ∉ channel)
    (differs : ¬ (channel = other ∧ index = otherIndex)) :
    ownAmong channel index (property :: properties) = ownAmong channel index properties := by
  have notOwn : ¬ (subChannelPrefix channel index).isPrefixOf property.1 = true := by
    rw [isField.key, List.isPrefixOf_iff_prefix,
      subChannelPrefix_prefix_iff channelFree isField.channelFree]
    exact differs
  rw [ownAmong, List.filter_cons, if_neg notOwn, ownAmong]

/-- What the loop leaves for a sub-channel. -/
theorem lookup_foldlM_initializeSocketProperty (properties : List (Text × Text))
    (fields : ∀ property ∈ properties, ∃ channel index field, IsField property channel index field)
    (named : Named fSocketProperties)
    (looped : properties.foldlM initializeSocketProperty fSocketProperties = some next)
    (channelFree : '.' ∉ channel) (nonempty : channel ≠ []) (index : Nat) :
    readFields (socketName channel (Text.decimal index))
        (fSocketProperties.lookup (socketName channel (Text.decimal index)))
        (ownAmong channel index properties) =
      some (next.lookup (socketName channel (Text.decimal index))) := by
  induction properties generalizing fSocketProperties with
  | nil =>
      cases looped
      rfl
  | cons property properties ih =>
      rw [List.foldlM_cons, Option.bind_eq_bind, Option.bind_eq_some_iff] at looped
      rcases looped with ⟨middle, stepped, rest⟩
      rcases fields property List.mem_cons_self with ⟨other, otherIndex, field, isField⟩
      have later := ih (fun property member => fields property (List.mem_cons_of_mem _ member))
        (named.step isField stepped) rest
      by_cases own : channel = other ∧ index = otherIndex
      · rcases own with ⟨rfl, rfl⟩
        have looked := lookup_initializeSocketProperty named isField nonempty stepped
          (socketName channel (Text.decimal index))
        rw [if_pos rfl] at looked
        rcases looked with ⟨p, read, lookup⟩
        rw [ownAmong_cons_of_eq isField, readFields, read, Option.bind_some, ← lookup]
        exact later
      · have kept : middle.lookup (socketName channel (Text.decimal index)) =
            fSocketProperties.lookup (socketName channel (Text.decimal index)) := by
          by_cases empty : other = []
          · subst empty
            rw [initializeSocketProperty_of_nil isField] at stepped
            cases stepped
            rfl
          · have looked := lookup_initializeSocketProperty named isField empty stepped
              (socketName channel (Text.decimal index))
            rwa [if_neg fun same => own (socketName_injective same)] at looked
        rw [ownAmong_cons_of_ne isField channelFree own, ← kept]
        exact later

/-- The loop does not throw. -/
theorem exists_foldlM_initializeSocketProperty (properties : List (Text × Text))
    (fields : ∀ property ∈ properties, ∃ channel index field, IsField property channel index field ∧
      ∀ known, Field.ofText field = some known → ∃ sp, assign {} property.2 known = some sp)
    (fSocketProperties : SocketProperties) :
    ∃ next, properties.foldlM initializeSocketProperty fSocketProperties = some next := by
  induction properties generalizing fSocketProperties with
  | nil => exact ⟨fSocketProperties, rfl⟩
  | cons property properties ih =>
      rcases fields property List.mem_cons_self with ⟨channel, index, field, isField, number⟩
      have stepped : ∃ middle,
          initializeSocketProperty fSocketProperties property = some middle := by
        by_cases empty : channel = []
        · subst empty
          exact ⟨fSocketProperties, initializeSocketProperty_of_nil isField⟩
        · rw [initializeSocketProperty_eq isField empty]
          simp only
          split_ifs
          · exact ⟨_, rfl⟩
          · rcases exists_decodeField _ number with ⟨p, decoded⟩
            rw [decoded]
            exact ⟨_, rfl⟩
      rcases stepped with ⟨middle, stepped⟩
      rcases ih (fun property member => fields property (List.mem_cons_of_mem _ member)) middle with
        ⟨next, rest⟩
      exact ⟨next, by rw [List.foldlM_cons, stepped]; exact rest⟩

/-! ## The socket of a sub-channel -/

variable {properties : Properties}

theorem chans_isPrefix_subChannel (channel : Text) (index : Nat) :
    "chans.".toList <+: subChannelPrefix channel index :=
  ⟨channel ++ '.' :: (Text.decimal index ++ ['.']), by
    simp [subChannelPrefix, fieldKey, localKey]
    rfl⟩

theorem ownAmong_eq (properties : Properties) (channel : Text) (index : Nat) :
    ownAmong channel index (propertiesStartingWith properties "chans.".toList) =
      ownFields properties channel index := by
  rw [ownAmong, ownFields, propertiesStartingWith, propertiesStartingWith, List.filter_filter]
  congr 1
  apply List.filter_congr
  intro property _
  by_cases own : (subChannelPrefix channel index).isPrefixOf property.1
  · have isProperty : "chans.".toList.isPrefixOf property.1 = true :=
      List.isPrefixOf_iff_prefix.mpr
        ((chans_isPrefix_subChannel channel index).trans (List.isPrefixOf_iff_prefix.mp own))
    rw [own, isProperty]
    rfl
  · rw [Bool.eq_false_of_not_eq_true own]
    rfl

theorem ChannelProperties.isField (wellFormed : ChannelProperties properties)
    {property : Text × Text}
    (member : property ∈ propertiesStartingWith properties "chans.".toList) :
    ∃ channel index field, IsField property channel index field ∧
      ∀ known, Field.ofText field = some known → ∃ sp, assign {} property.2 known = some sp := by
  rcases property with ⟨key, value⟩
  rcases mem_propertiesStartingWith.mp member with ⟨found, isPrefix⟩
  have present : key ∈ properties :=
    AList.lookup_isSome.mp (Option.isSome_iff_exists.mpr ⟨value, found⟩)
  rcases wellFormed.keys key present isPrefix with
    ⟨channel, index, field, rfl, channelFree, fieldFree⟩
  apply Exists.intro channel
  apply Exists.intro index
  apply Exists.intro field
  constructor
  · exact ⟨rfl, channelFree, fieldFree⟩
  · intro known isKnown
    rw [← Field.text_of_ofText isKnown] at found
    exact wellFormed.numbers channel index known value found

/-- After the loop the socket of a sub-channel holds what its own fields make of it. -/
theorem exists_initializeSocketProperties (wellFormed : ChannelProperties properties) :
    ∃ fSocketProperties, initializeSocketProperties properties = some fSocketProperties ∧
      ∀ channel index, '.' ∉ channel → channel ≠ [] →
        readFields (socketName channel (Text.decimal index)) none
            (ownFields properties channel index) =
          some (fSocketProperties.lookup (socketName channel (Text.decimal index))) := by
  have fields := @ChannelProperties.isField properties wellFormed
  rcases exists_foldlM_initializeSocketProperty _ (fun _ member => fields member) ∅ with
    ⟨next, looped⟩
  apply Exists.intro next
  apply And.intro looped
  intro channel index channelFree nonempty
  have own := @lookup_foldlM_initializeSocketProperty ∅ next channel _
    (fun property member =>
      have ⟨channel, index, field, isField, _⟩ := fields member
      ⟨channel, index, field, isField⟩)
    (fun name p found => by rw [AList.lookup_empty] at found; cases found) looped channelFree
    nonempty index
  rwa [ownAmong_eq, AList.lookup_empty] at own

/-- What is left of the fields behind the first one. -/
theorem fieldText_readFields {name : Text} {first p : SocketProperty} {rest : List (Text × Text)}
    (nodup : (rest.map Prod.fst).Nodup) (read : readFields name (some first) rest = some (some p))
    {field : Field} (reads : field ∈ decodedFields) :
    (∀ v, (field.text, v) ∈ rest → decodeText field v = some (fieldText p field)) ∧
      (field.text ∉ rest.map Prod.fst → fieldText p field = fieldText first field) := by
  induction rest generalizing first with
  | nil =>
      cases read
      exact ⟨fun v member => absurd member List.not_mem_nil, fun _ => rfl⟩
  | cons entry rest ih =>
      rcases entry with ⟨key, value⟩
      rw [readFields, Option.bind_eq_some_iff] at read
      rcases read with ⟨next, decoded, later⟩
      rw [List.map_cons, List.nodup_cons] at nodup
      rcases ih nodup.2 later with ⟨inRest, notInRest⟩
      constructor
      · intro v member
        rcases List.mem_cons.mp member with same | member
        · cases same
          rw [notInRest nodup.1]
          exact decodeText_of_decodeField reads decoded
        · exact inRest v member
      · intro absent
        rw [List.map_cons, List.mem_cons, not_or] at absent
        rw [notInRest absent.2]
        exact fieldText_decodeField absent.1 decoded

/-- A hash with numbers in its numeric fields is read. -/
theorem exists_toSocketProperty {hash : Hash}
    (numbers : ∀ field v, hash.lookup (Field.text field) = some v →
      ∃ sp, assign {} v field = some sp) : ∃ sp, toSocketProperty hash = some sp := by
  have each : ∀ entry ∈ hash.entries, ∀ field, Field.ofText entry.1 = some field →
      ∃ sp, assign {} entry.2 field = some sp := by
    intro entry member field known
    apply numbers field entry.2
    rw [Field.text_of_ofText known]
    exact AList.mem_lookup_iff.mpr member
  have folds : ∀ (entries : List (Sigma fun _ : Text => Text)) (sp : SocketProperty),
      (∀ entry ∈ entries, ∀ field, Field.ofText entry.1 = some field →
        ∃ sp, assign {} entry.2 field = some sp) →
      ∃ result, entries.foldlM (fun sp entry => setField sp entry.1 entry.2) sp = some result := by
    intro entries
    induction entries with
    | nil => exact fun sp _ => ⟨sp, rfl⟩
    | cons entry entries ih =>
        intro sp all
        have stepped : ∃ next, setField sp entry.1 entry.2 = some next := by
          rw [setField]
          cases known : Field.ofText entry.1 with
          | none => exact ⟨sp, rfl⟩
          | some field =>
              rcases all entry List.mem_cons_self field known with ⟨other, assigned⟩
              exact exists_assign assigned sp
        rcases stepped with ⟨next, stepped⟩
        rcases ih next (fun entry member => all entry (List.mem_cons_of_mem _ member)) with
          ⟨result, folded⟩
        exact ⟨result, by rw [List.foldlM_cons, stepped]; exact folded⟩
  exact folds hash.entries {} each

/-! ## The two decoders -/

theorem nodup_ownFields (properties : Properties) (channel : Text) (index : Nat) :
    ((ownFields properties channel index).map Prod.fst).Nodup := by
  have keys : (propertiesStartingWith properties (subChannelPrefix channel index)).Pairwise
      fun first second => first.1 ≠ second.1 := by
    apply List.Pairwise.filter
    rw [← List.pairwise_map]
    exact nodup_keys_ordered properties
  rw [ownFields, List.map_map, List.Nodup, List.pairwise_map]
  apply keys.imp_of_mem
  intro first second inFirst inSecond differs same
  rcases (mem_propertiesStartingWith.mp inFirst).2 with ⟨firstField, firstKey⟩
  rcases (mem_propertiesStartingWith.mp inSecond).2 with ⟨secondField, secondKey⟩
  apply differs
  simp only [Function.comp_apply, Text.substrFrom, ← firstKey, ← secondKey, List.drop_left] at same
  rw [← firstKey, ← secondKey, same]

theorem mem_ownFields {channel field value : Text} {index : Nat} :
    (field, value) ∈ ownFields properties channel index ↔
      properties.lookup (fieldKey channel index field) = some value := by
  rw [ownFields, List.mem_map, fieldKey_eq_append]
  constructor
  · rintro ⟨⟨key, found⟩, member, equal⟩
    rcases mem_propertiesStartingWith.mp member with ⟨lookup, rest, isKey⟩
    rw [← isKey, Text.substrFrom, List.drop_left] at equal
    cases equal
    rw [isKey]
    exact lookup
  · intro lookup
    apply Exists.intro (subChannelPrefix channel index ++ field, value)
    constructor
    · exact mem_propertiesStartingWith.mpr ⟨lookup, List.prefix_append _ _⟩
    · rw [Text.substrFrom, List.drop_left]

/-- What `ToSocketProperty` makes of the field map of a sub-channel. -/
theorem exists_toSocketProperty_fieldMap (wellFormed : ChannelProperties properties)
    (channel : Text) (index : Nat) :
    ∃ sp, toSocketProperty (fieldMap properties channel index) = some sp ∧ ∀ field,
      (∀ v, (Field.text field, v) ∈ ownFields properties channel index →
        (assign {} v field).map (fieldText · field) = some (fieldText sp field)) ∧
      (Field.text field ∉ (ownFields properties channel index).map Prod.fst →
        fieldText sp field = fieldText {} field) := by
  have nodup := nodup_ownFields properties channel index
  have ofMem {field v : Text} (member : (field, v) ∈ ownFields properties channel index) :
      (fieldMap properties channel index).lookup field = some v :=
    lookup_setFields_of_mem nodup member
  have ofNotMem {field : Text}
      (absent : field ∉ (ownFields properties channel index).map Prod.fst) :
      (fieldMap properties channel index).lookup field = none :=
    lookup_setFields_of_notMem absent
  have numbers : ∀ field v, (fieldMap properties channel index).lookup (Field.text field) = some v →
      ∃ sp, assign {} v field = some sp := by
    intro field v found
    by_cases present : Field.text field ∈ (ownFields properties channel index).map Prod.fst
    · rcases List.mem_map.mp present with ⟨⟨key, value⟩, member, isKey⟩
      rw [← isKey, ofMem member] at found
      cases found
      rw [mem_ownFields] at member
      simp only at isKey
      rw [isKey] at member
      exact wellFormed.numbers channel index field v member
    · rw [ofNotMem present] at found
      cases found
  rcases exists_toSocketProperty numbers with ⟨sp, read⟩
  apply Exists.intro sp
  apply And.intro read
  intro field
  have view := foldlM_setField_view (fieldText · field) field
    (fun value => (assign {} value field).map (fieldText · field))
    (fun _ _ _ assigned => assign_fieldText_congr assigned {})
    (fun _ _ _ _ differs assigned => fieldText_assign_of_ne (Ne.symm differs) assigned)
    (fieldMap properties channel index).entries (fieldMap properties channel index).nodupKeys read
  constructor
  · intro v member
    have found : (fieldMap properties channel index).entries.dlookup (Field.text field) = some v :=
      ofMem member
    rw [found] at view
    exact view
  · intro absent
    have found : (fieldMap properties channel index).entries.dlookup (Field.text field) = none :=
      ofNotMem absent
    rw [found] at view
    exact view

/-- The metrics see the sub-channel as `ToSocketProperty` reads it. -/
def Sees (properties : Properties) (channel : Text) (index : Nat) : Prop :=
  ∃ fSocketProperties p sp, initializeSocketProperties properties = some fSocketProperties ∧
    fSocketProperties.lookup (socketName channel (Text.decimal index)) = some p ∧
    toSocketProperty (fieldMap properties channel index) = some sp ∧
    ∀ field ∈ decodedFields, fieldText p field = fieldText sp field

/-- The channel has a name, the first field of the sub-channel has its default value, and
`autoBind` behind it is not another spelling of `true`. -/
structure FirstIsDefault (properties : Properties) (channel : Text) (index : Nat) : Prop where
  nonempty : channel ≠ []
  first : ∀ first ∈ (ownFields properties channel index).head?, ∀ field ∈ decodedFields,
    first.1 = Field.text field →
      (assign {} first.2 field).map (fieldText · field) = some (fieldText {} field)
  flag : ∀ v, (Field.text .autoBind, v) ∈ (ownFields properties channel index).tail →
    exactFlag v = parseFlag v

/-- With an empty channel name no socket is made. -/
theorem lookup_foldlM_of_nil (properties : List (Text × Text))
    (fields : ∀ property ∈ properties, ∃ channel index field, IsField property channel index field)
    (named : Named fSocketProperties)
    (looped : properties.foldlM initializeSocketProperty fSocketProperties = some next)
    (index : Nat) :
    next.lookup (socketName [] (Text.decimal index)) =
      fSocketProperties.lookup (socketName [] (Text.decimal index)) := by
  induction properties generalizing fSocketProperties with
  | nil =>
      cases looped
      rfl
  | cons property properties ih =>
      rw [List.foldlM_cons, Option.bind_eq_bind, Option.bind_eq_some_iff] at looped
      rcases looped with ⟨middle, stepped, rest⟩
      rcases fields property List.mem_cons_self with ⟨other, otherIndex, field, isField⟩
      rw [ih (fun property member => fields property (List.mem_cons_of_mem _ member))
        (named.step isField stepped) rest]
      by_cases empty : other = []
      · subst empty
        rw [initializeSocketProperty_of_nil isField] at stepped
        cases stepped
        rfl
      · have looked := lookup_initializeSocketProperty named isField empty stepped
          (socketName [] (Text.decimal index))
        rwa [if_neg fun same => empty (socketName_injective same).1.symm] at looked

theorem not_sees_of_nil (wellFormed : ChannelProperties properties) (index : Nat) :
    ¬ Sees properties [] index := by
  rintro ⟨fSocketProperties, p, _, looped, found, _⟩
  rw [lookup_foldlM_of_nil _ (fun property member =>
      have ⟨channel, index, field, isField, _⟩ := wellFormed.isField member
      ⟨channel, index, field, isField⟩)
    (fun name p found => by rw [AList.lookup_empty] at found; cases found) looped,
    AList.lookup_empty] at found
  cases found

theorem readFields_some {name : Text} {first : SocketProperty} {rest : List (Text × Text)}
    {result : Option SocketProperty} (read : readFields name (some first) rest = some result) :
    ∃ p, result = some p := by
  induction rest generalizing first with
  | nil =>
      cases read
      exact ⟨first, rfl⟩
  | cons entry rest ih =>
      rw [readFields, Option.bind_eq_some_iff] at read
      rcases read with ⟨next, _, later⟩
      exact ih later

/-- The first field is skipped, and the others are read. -/
theorem agree_iff {name key value : Text} {p sp : SocketProperty} {rest : List (Text × Text)}
    (nodup : (((key, value) :: rest).map Prod.fst).Nodup)
    (read : readFields name (some { name := name }) rest = some (some p))
    (texts : ∀ field,
      (∀ v, (Field.text field, v) ∈ (key, value) :: rest →
        (assign {} v field).map (fieldText · field) = some (fieldText sp field)) ∧
      (Field.text field ∉ ((key, value) :: rest).map Prod.fst →
        fieldText sp field = fieldText {} field)) :
    (∀ field ∈ decodedFields, fieldText p field = fieldText sp field) ↔
      (∀ field ∈ decodedFields, key = Field.text field →
        (assign {} value field).map (fieldText · field) = some (fieldText {} field)) ∧
      ∀ v, (Field.text .autoBind, v) ∈ rest → exactFlag v = parseFlag v := by
  rw [List.map_cons, List.nodup_cons] at nodup
  have unread {field : Field} (reads : field ∈ decodedFields) :
      fieldText { name := name } field = fieldText {} field := by
    cases field <;> first | rfl | exact absurd reads (by decide)
  constructor
  · intro agree
    constructor
    · intro field reads isKey
      have skipped := (fieldText_readFields nodup.2 read reads).2 (isKey ▸ nodup.1)
      rw [(texts field).1 value (isKey ▸ List.mem_cons_self), ← agree field reads, skipped,
        unread reads]
    · intro v member
      have reads : Field.autoBind ∈ decodedFields := by decide
      have first := (fieldText_readFields nodup.2 read reads).1 v member
      have second := (texts .autoBind).1 v (List.mem_cons_of_mem _ member)
      rw [← agree .autoBind reads, ← first, decodeText_autoBind] at second
      exact (flagText_injective (Option.some.inj second)).symm
  · rintro ⟨first, flag⟩ field reads
    have behind := fieldText_readFields nodup.2 read reads
    by_cases inRest : field.text ∈ rest.map Prod.fst
    · rcases List.mem_map.mp inRest with ⟨⟨other, v⟩, member, isText⟩
      simp only at isText
      rw [isText] at member
      have metrics := behind.1 v member
      have topology := (texts field).1 v (List.mem_cons_of_mem _ member)
      by_cases isFlag : field = .autoBind
      · subst isFlag
        rw [decodeText_autoBind, flag v member] at metrics
        exact Option.some.inj (metrics.symm.trans topology)
      · rw [decodeText_of_ne reads isFlag] at metrics
        exact Option.some.inj (metrics.symm.trans topology)
    · rw [behind.2 inRest, unread reads]
      by_cases isKey : key = field.text
      · have topology := (texts field).1 value (isKey ▸ List.mem_cons_self)
        rw [first field reads isKey] at topology
        exact Option.some.inj topology
      · rw [(texts field).2]
        rw [List.map_cons, List.mem_cons, not_or]
        exact ⟨Ne.symm isKey, inRest⟩

/-- The metrics see a sub-channel as `ToSocketProperty` reads it if and only if the field
that they skip has its default value, and the flag is spelled in a way both know. -/
theorem sees_iff (wellFormed : ChannelProperties properties) {channel field value : Text}
    {index : Nat} (channelFree : '.' ∉ channel)
    (present : properties.lookup (fieldKey channel index field) = some value) :
    Sees properties channel index ↔ FirstIsDefault properties channel index := by
  by_cases empty : channel = []
  · subst empty
    exact iff_of_false (not_sees_of_nil wellFormed index) fun condition => condition.nonempty rfl
  · rcases exists_initializeSocketProperties wellFormed with ⟨known, looped, each⟩
    rcases exists_toSocketProperty_fieldMap wellFormed channel index with ⟨sp, readMap, texts⟩
    have own := each channel index channelFree empty
    have nodup := nodup_ownFields properties channel index
    have member := mem_ownFields.mpr present
    rcases fields : ownFields properties channel index with _ | ⟨⟨key, first⟩, rest⟩
    · rw [fields] at member
      cases member
    · rw [fields] at own nodup texts
      rw [readFields, readField, Option.bind_some] at own
      rcases readFields_some own with ⟨p, found⟩
      rw [found] at own
      have agree := agree_iff nodup own texts
      constructor
      · rintro ⟨known', p', sp', looped', found', read', same⟩
        rw [looped] at looped'
        cases looped'
        rw [found] at found'
        cases found'
        rw [readMap] at read'
        cases read'
        rcases agree.mp same with ⟨firstDefault, flag⟩
        constructor
        · exact empty
        · rw [fields]
          rintro _ ⟨⟩
          exact firstDefault
        · rw [fields]
          exact flag
      · rintro ⟨_, firstDefault, flag⟩
        rw [fields] at firstDefault flag
        exact ⟨known, p, sp, looped, found, readMap,
          agree.mpr ⟨firstDefault (key, first) rfl, flag⟩⟩

/-- A channel with one property. -/
def addressProperties : Properties :=
  (∅ : Properties).insert (fieldKey "out".toList 0 "address".toList) "tcp://*:5555".toList

theorem addressProperties_wellFormed : ChannelProperties addressProperties := by
  constructor
  · intro key member _
    rcases (AList.mem_insert _).mp member with isKey | inEmpty
    · exact ⟨_, _, _, isKey, by decide, by decide⟩
    · exact absurd inEmpty (AList.notMem_empty key)
  · intro channel index field value found
    have each : ∀ entry ∈ addressProperties.entries,
        entry.1 = fieldKey "out".toList 0 "address".toList := by
      decide +kernel
    have isAddress := congrArg lastPart (each _ (AList.mem_lookup_iff.mp found))
    have free : '.' ∉ Field.text field := by
      cases field <;> decide
    rw [fieldKey, fieldKey, lastPart_append_cons _ free, lastPart_append_cons _ (by decide)]
      at isAddress
    rw [@Field.text_injective field .address isAddress]
    exact ⟨_, rfl⟩

/-- The metrics do not see its address. -/
theorem addressProperties_not_sees :
    ChannelProperties addressProperties ∧
      addressProperties.lookup (fieldKey "out".toList 0 "address".toList) =
        some "tcp://*:5555".toList ∧
      ¬ Sees addressProperties "out".toList 0 := by
  apply And.intro addressProperties_wellFormed
  have found : addressProperties.lookup (fieldKey "out".toList 0 "address".toList) =
      some "tcp://*:5555".toList := AList.lookup_insert _
  apply And.intro found
  rintro ⟨known, p, sp, looped, found, read, same⟩
  have metrics : ((initializeSocketProperties addressProperties).bind fun known =>
      (known.lookup (socketName "out".toList (Text.decimal 0))).map (·.address)) = some [] := by
    decide +kernel
  have topology : (toSocketProperty (fieldMap addressProperties "out".toList 0)).map (·.address) =
      some "tcp://*:5555".toList := by
    decide +kernel
  rw [looped, Option.bind_some, found] at metrics
  rw [read] at topology
  have address : p.address = sp.address := same .address (by decide)
  rw [Option.map_some, Option.some.injEq] at metrics topology
  rw [metrics, topology] at address
  revert address
  decide

/-- A channel whose first property has its default value. -/
def lingerProperties : Properties :=
  ((∅ : Properties).insert (fieldKey "out".toList 0 "autoBind".toList) ['1']).insert
    (fieldKey "out".toList 0 "linger".toList) ['1']

theorem lingerProperties_wellFormed : ChannelProperties lingerProperties := by
  constructor
  · intro key member _
    rcases (AList.mem_insert _).mp member with isKey | later
    · exact ⟨_, _, _, isKey, by decide, by decide⟩
    · rcases (AList.mem_insert _).mp later with isKey | inEmpty
      · exact ⟨_, _, _, isKey, by decide, by decide⟩
      · exact absurd inEmpty (AList.notMem_empty key)
  · intro channel index field value found
    have each : ∀ entry ∈ lingerProperties.entries, entry.2 = ['1'] := by
      decide +kernel
    have isOne := each _ (AList.mem_lookup_iff.mp found)
    simp only at isOne
    rw [isOne]
    cases field <;> exact ⟨_, rfl⟩

/-- The metrics see this channel. -/
theorem lingerProperties_sees : Sees lingerProperties "out".toList 0 := by
  have found : lingerProperties.lookup (fieldKey "out".toList 0 "linger".toList) = some ['1'] :=
    AList.lookup_insert _
  apply (sees_iff lingerProperties_wellFormed (by decide) found).mpr
  have fields : ownFields lingerProperties "out".toList 0 =
      [("autoBind".toList, ['1']), ("linger".toList, ['1'])] := by
    decide +kernel
  constructor
  · decide
  · rw [fields]
    rintro _ ⟨⟩
    decide +kernel
  · rw [fields]
    intro v member
    rcases List.mem_singleton.mp member with ⟨⟩

end NestDaq.Metrics
