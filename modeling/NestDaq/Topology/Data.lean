import NestDaq.Store.Db

/-!
# Topology data

The properties of a message-queue socket and of a link, their textual form in
the registry, and the option string handed to the transport layer. The reader
`toSocketProperty` and the writer `channelFields` list the fields separately,
as the code does.
-/

namespace NestDaq.Topology

open NestDaq.Store

/-- Property of a socket. `int` fields are integers. -/
structure SocketProperty where
  name : Text := []
  type : Text := []
  method : Text := []
  address : Text := []
  transport : Text := "zeromq".toList
  sndBufSize : Int := 1000
  rcvBufSize : Int := 1000
  sndKernelSize : Int := 0
  rcvKernelSize : Int := 0
  linger : Int := 500
  rateLogging : Int := 1
  portRangeMin : Int := 22000
  portRangeMax : Int := 32000
  autoBind : Bool := true
  numSockets : Int := 0
  autoSubChannel : Bool := false
  bound : Bool := false
  waitForPeerConnection : Bool := true
  deriving DecidableEq

/-- The two ends of a link, seen from one service. -/
structure LinkProperty where
  myService : Text := []
  myChannel : Text := []
  peerService : Text := []
  peerChannel : Text := []
  options : Text := []
  deriving DecidableEq

/-- `std::map` of the channels by name. -/
abbrev MQChannel := AList fun _ : Text => SocketProperty

/-- The fields of a socket hash. -/
inductive Field where
  | name | type | method | address | transport
  | sndBufSize | rcvBufSize | sndKernelSize | rcvKernelSize
  | linger | rateLogging | portRangeMin | portRangeMax | autoBind
  | numSockets | autoSubChannel | bound | waitForPeerConnection
  deriving DecidableEq

namespace Field

/-- The name of a field in the registry. -/
def text : Field → Text
  | .name => "name".toList
  | .type => "type".toList
  | .method => "method".toList
  | .address => "address".toList
  | .transport => "transport".toList
  | .sndBufSize => "sndBufSize".toList
  | .rcvBufSize => "rcvBufSize".toList
  | .sndKernelSize => "sndKernelSize".toList
  | .rcvKernelSize => "rcvKernelSize".toList
  | .linger => "linger".toList
  | .rateLogging => "rateLogging".toList
  | .portRangeMin => "portRangeMin".toList
  | .portRangeMax => "portRangeMax".toList
  | .autoBind => "autoBind".toList
  | .numSockets => "numSockets".toList
  | .autoSubChannel => "autoSubChannel".toList
  | .bound => "bound".toList
  | .waitForPeerConnection => "waitForPeerConnection".toList

/-- All fields. -/
def all : List Field :=
  [.name, .type, .method, .address, .transport, .sndBufSize, .rcvBufSize, .sndKernelSize,
    .rcvKernelSize, .linger, .rateLogging, .portRangeMin, .portRangeMax, .autoBind,
    .numSockets, .autoSubChannel, .bound, .waitForPeerConnection]

/-- The field a name stands for. -/
def ofText (name : Text) : Option Field :=
  all.find? fun field => field.text = name

@[simp]
theorem ofText_text (field : Field) : ofText field.text = some field := by
  cases field <;> rfl

theorem text_of_ofText {name : Text} {field : Field} (found : ofText name = some field) :
    field.text = name := by
  simpa using List.find?_some found

theorem text_injective : Function.Injective text := by
  intro first second equal
  have found := congrArg ofText equal
  simpa using found

end Field

/-! ## Textual form -/

/-- `std::to_string` of a flag. -/
def flagText (flag : Bool) : Text :=
  if flag then ['1'] else ['0']

/-- A flag is set by `1` or by `true` in any case. -/
def parseFlag (value : Text) : Bool :=
  Text.toLower value = ['1'] || Text.toLower value = "true".toList

@[simp]
theorem parseFlag_flagText (flag : Bool) : parseFlag (flagText flag) = flag := by
  cases flag <;> decide

/-- One known field in `ToSocketProperty`; `none` when `stoi` throws. -/
def assign (sp : SocketProperty) (value : Text) : Field → Option SocketProperty
  | .name => some { sp with name := value }
  | .type => some { sp with type := value }
  | .method => some { sp with method := value }
  | .address => some { sp with address := value }
  | .transport => some { sp with transport := value }
  | .sndBufSize => (Text.stoi value).map fun n => { sp with sndBufSize := n }
  | .rcvBufSize => (Text.stoi value).map fun n => { sp with rcvBufSize := n }
  | .sndKernelSize => (Text.stoi value).map fun n => { sp with sndKernelSize := n }
  | .rcvKernelSize => (Text.stoi value).map fun n => { sp with rcvKernelSize := n }
  | .linger => (Text.stoi value).map fun n => { sp with linger := n }
  | .rateLogging => (Text.stoi value).map fun n => { sp with rateLogging := n }
  | .portRangeMin => (Text.stoi value).map fun n => { sp with portRangeMin := n }
  | .portRangeMax => (Text.stoi value).map fun n => { sp with portRangeMax := n }
  | .autoBind => some { sp with autoBind := parseFlag value }
  | .numSockets => (Text.stoi value).map fun n => { sp with numSockets := n }
  | .autoSubChannel => some { sp with autoSubChannel := parseFlag value }
  | .bound => some { sp with bound := parseFlag value }
  | .waitForPeerConnection => some { sp with waitForPeerConnection := parseFlag value }

/-- One entry of a hash in `ToSocketProperty`; unknown fields are ignored. -/
def setField (sp : SocketProperty) (field value : Text) : Option SocketProperty :=
  match Field.ofText field with
  | some field => assign sp value field
  | none => some sp

/-- `ToSocketProperty`: convert a hash of the registry, in its enumeration order. The
numbers are read by `Text.stoi`, which has no range of its own: a number beyond the range
of `int` is read here, and throws in the source. -/
def toSocketProperty (hash : Hash) : Option SocketProperty :=
  hash.entries.foldlM (fun sp entry => setField sp entry.1 entry.2) {}

/-- The fields `WriteChannel` writes. -/
def channelFields (sp : SocketProperty) : List (Text × Text) :=
  [(Field.text .name, sp.name),
   (Field.text .type, sp.type),
   (Field.text .method, sp.method),
   (Field.text .address, sp.address),
   (Field.text .transport, sp.transport),
   (Field.text .sndBufSize, Text.toString sp.sndBufSize),
   (Field.text .rcvBufSize, Text.toString sp.rcvBufSize),
   (Field.text .sndKernelSize, Text.toString sp.sndKernelSize),
   (Field.text .rcvKernelSize, Text.toString sp.rcvKernelSize),
   (Field.text .linger, Text.toString sp.linger),
   (Field.text .rateLogging, Text.toString sp.rateLogging),
   (Field.text .portRangeMin, Text.toString sp.portRangeMin),
   (Field.text .portRangeMax, Text.toString sp.portRangeMax),
   (Field.text .autoBind, flagText sp.autoBind),
   (Field.text .numSockets, Text.toString sp.numSockets),
   (Field.text .autoSubChannel, flagText sp.autoSubChannel),
   (Field.text .bound, flagText sp.bound),
   (Field.text .waitForPeerConnection, flagText sp.waitForPeerConnection)]

/-- A property `view` of the result that one field decides is decided by the
lookup of that field, whatever the enumeration order. -/
theorem foldlM_setField_view {β : Type} (view : SocketProperty → β) (field : Field)
    (parse : Text → Option β)
    (sets : ∀ sp value next, assign sp value field = some next → parse value = some (view next))
    (keeps : ∀ sp value other next, other ≠ field → assign sp value other = some next →
      view next = view sp)
    (entries : List (Sigma fun _ : Text => Text)) (nodup : entries.NodupKeys)
    {sp result : SocketProperty}
    (folded : entries.foldlM (fun sp entry => setField sp entry.1 entry.2) sp = some result) :
    match entries.dlookup field.text with
    | some value => parse value = some (view result)
    | none => view result = view sp := by
  induction entries generalizing sp with
  | nil =>
      cases folded
      rfl
  | cons entry entries ih =>
      rw [List.foldlM_cons, Option.bind_eq_bind, Option.bind_eq_some_iff] at folded
      obtain ⟨next, stepped, rest⟩ := folded
      obtain ⟨notMem, nodupRest⟩ := List.nodupKeys_cons.mp nodup
      have later := ih nodupRest rest
      obtain ⟨key, value⟩ := entry
      by_cases same : key = field.text
      · subst same
        rw [List.dlookup_eq_none.mpr notMem] at later
        rw [List.dlookup_cons_eq]
        simp only [setField, Field.ofText_text] at later stepped ⊢
        rw [later]
        exact sets sp value next stepped
      · have keep : view next = view sp := by
          unfold setField at stepped
          split at stepped
          · rename_i other found
            have differs : other ≠ field := by
              rintro rfl
              exact same (Field.text_of_ofText found).symm
            exact keeps sp value other next differs stepped
          · cases stepped
            rfl
        rw [List.dlookup_cons_ne _ _ (Ne.symm same)]
        cases found : entries.dlookup field.text with
        | some value' => simpa [found] using later
        | none => exact (by simpa [found] using later : view result = view next).trans keep

/-- The mark read from a hash. -/
theorem bound_of_toSocketProperty {hash : Hash} {sp : SocketProperty}
    (read : toSocketProperty hash = some sp) :
    sp.bound = ((hash.lookup (Field.text .bound)).map parseFlag).getD false := by
  have view := foldlM_setField_view (·.bound) .bound (fun value => some (parseFlag value))
    (by rintro sp value next assigned; cases assigned; rfl)
    (by
      intro sp value other next differs assigned
      cases other <;> first
        | exact absurd rfl differs
        | cases assigned; rfl
        | obtain ⟨_, -, rfl⟩ := Option.map_eq_some_iff.mp assigned; rfl)
    hash.entries hash.nodupKeys read
  rw [AList.lookup]
  cases found : hash.entries.dlookup (Field.text .bound) with
  | none =>
      rw [found] at view
      exact view
  | some value =>
      rw [found] at view
      exact (Option.some.inj view).symm

/-- `MakeAddress`: in a tcp address bound to any interface, put the address of
the peer. -/
def makeAddress (address peerIP : Text) : Text :=
  if Text.find address "tcp://".toList = some 0 ∧
      (Text.find address ['*'] ≠ none ∨ Text.find address "0.0.0.0".toList ≠ none) then
    Text.substrTo address (some 6) ++ peerIP ++
      Text.substrFrom address ((Text.findLastOf address [':']).getD 0)
  else address

theorem makeAddress_ne_nil {address : Text} (nonempty : address ≠ []) (peerIP : Text) :
    makeAddress address peerIP ≠ [] := by
  unfold makeAddress
  split
  · intro empty
    have front : Text.substrTo address (some 6) = [] := by
      rw [List.append_assoc, List.append_eq_nil_iff] at empty
      exact empty.1
    rw [Text.substrTo, List.take_eq_nil_iff] at front
    exact nonempty (front.resolve_left (by decide))
  · exact nonempty

@[simp]
theorem makeAddress_nil (peerIP : Text) : makeAddress [] peerIP = [] := by
  simp [makeAddress, Text.find]

/-- The text of the `unspecified` addresses of `ToChannelConfig`. -/
def unspecifiedAddresses (numSockets : Int) : Text :=
  "unspecified".toList ++
    (List.replicate (numSockets - 1).toNat ",address=unspecified".toList).flatten

/-- The address part of `ToChannelConfig`. The count of a list is not negative;
with a negative one the padding loop of the code does not end. -/
def configAddress (sp : SocketProperty) : Text :=
  if Text.find sp.address [','] ≠ none then
    let addresses := Text.split sp.address [',']
    let missing := (sp.numSockets - addresses.length).toNat
    Text.join (addresses ++ List.replicate missing "unspecified".toList) ",address=".toList
  else if sp.address ≠ [] ∧ sp.address ≠ "unspecified".toList then sp.address
  else unspecifiedAddresses sp.numSockets

/-- `ToChannelConfig`: the command line option of a socket. -/
def toChannelConfig (sp : SocketProperty) : Text :=
  "name=".toList ++ sp.name ++ ",type=".toList ++ sp.type ++
    ",method=".toList ++ sp.method ++ ",address=".toList ++ configAddress sp ++
    ",transport=".toList ++ sp.transport ++
    ",rcvBufSize=".toList ++ Text.toString sp.rcvBufSize ++
    ",sndBufSize=".toList ++ Text.toString sp.sndBufSize ++
    ",rcvKernelSize=".toList ++ Text.toString sp.rcvKernelSize ++
    ",sndKernelSize=".toList ++ Text.toString sp.sndKernelSize ++
    ",linger=".toList ++ Text.toString sp.linger ++
    ",rateLogging=".toList ++ Text.toString sp.rateLogging ++
    ",portRangeMin=".toList ++ Text.toString sp.portRangeMin ++
    ",portRangeMax=".toList ++ Text.toString sp.portRangeMax ++
    ",autoBind=".toList ++ flagText sp.autoBind

/-! ## Reader and writer -/

/-- The text of one field of a socket. -/
def fieldText (sp : SocketProperty) : Field → Text
  | .name => sp.name
  | .type => sp.type
  | .method => sp.method
  | .address => sp.address
  | .transport => sp.transport
  | .sndBufSize => Text.toString sp.sndBufSize
  | .rcvBufSize => Text.toString sp.rcvBufSize
  | .sndKernelSize => Text.toString sp.sndKernelSize
  | .rcvKernelSize => Text.toString sp.rcvKernelSize
  | .linger => Text.toString sp.linger
  | .rateLogging => Text.toString sp.rateLogging
  | .portRangeMin => Text.toString sp.portRangeMin
  | .portRangeMax => Text.toString sp.portRangeMax
  | .autoBind => flagText sp.autoBind
  | .numSockets => Text.toString sp.numSockets
  | .autoSubChannel => flagText sp.autoSubChannel
  | .bound => flagText sp.bound
  | .waitForPeerConnection => flagText sp.waitForPeerConnection

theorem flagText_injective : Function.Injective flagText := by
  intro first second equal
  have flags := congrArg parseFlag equal
  simpa using flags

/-- The writer lists every field once, with its text. -/
theorem channelFields_eq (sp : SocketProperty) :
    channelFields sp = Field.all.map fun field => (field.text, fieldText sp field) :=
  rfl

theorem Field.mem_all (field : Field) : field ∈ Field.all := by
  cases field <;> decide

/-- A socket is determined by the texts of its fields. -/
theorem SocketProperty.ext_fieldText {first second : SocketProperty}
    (same : ∀ field, fieldText first field = fieldText second field) : first = second := by
  have text (field : Field) := same field
  cases first
  cases second
  simp only [SocketProperty.mk.injEq]
  exact ⟨text .name, text .type, text .method, text .address, text .transport,
    Text.toString_injective (text .sndBufSize), Text.toString_injective (text .rcvBufSize),
    Text.toString_injective (text .sndKernelSize), Text.toString_injective (text .rcvKernelSize),
    Text.toString_injective (text .linger), Text.toString_injective (text .rateLogging),
    Text.toString_injective (text .portRangeMin), Text.toString_injective (text .portRangeMax),
    flagText_injective (text .autoBind), Text.toString_injective (text .numSockets),
    flagText_injective (text .autoSubChannel), flagText_injective (text .bound),
    flagText_injective (text .waitForPeerConnection)⟩

/-- Reading back the text of a field gives a socket with that text in it. -/
theorem assign_fieldText (sp target : SocketProperty) (field : Field) :
    ∃ next, assign sp (fieldText target field) field = some next ∧
      fieldText next field = fieldText target field := by
  cases field <;> simp [assign, fieldText, Text.stoi_toString]

/-- Assigning one field keeps the texts of the others. -/
theorem fieldText_assign_of_ne {sp next : SocketProperty} {value : Text}
    {field other : Field} (differs : other ≠ field) (assigned : assign sp value field = some next) :
    fieldText next other = fieldText sp other := by
  cases field <;> first
    | cases assigned; cases other <;> first | rfl | exact absurd rfl differs
    | obtain ⟨_, -, rfl⟩ := Option.map_eq_some_iff.mp assigned
      cases other <;> first | rfl | exact absurd rfl differs

/-- The text a field gets does not depend on the rest of the socket. -/
theorem assign_fieldText_congr {sp next : SocketProperty} {value : Text} {field : Field}
    (assigned : assign sp value field = some next) (other : SocketProperty) :
    (assign other value field).map (fieldText · field) = some (fieldText next field) := by
  cases field <;> first
    | cases assigned; rfl
    | obtain ⟨n, parsed, rfl⟩ := Option.map_eq_some_iff.mp assigned
      simp [assign, parsed, fieldText]

/-- A fold over entries that each carry the text of a field of `target` succeeds. -/
theorem foldlM_setField_isSome (target : SocketProperty)
    (entries : List (Sigma fun _ : Text => Text))
    (texts : ∀ entry ∈ entries, ∀ field, Field.ofText entry.1 = some field →
      entry.2 = fieldText target field) (sp : SocketProperty) :
    ∃ result, entries.foldlM (fun sp entry => setField sp entry.1 entry.2) sp = some result := by
  induction entries generalizing sp with
  | nil => exact ⟨sp, rfl⟩
  | cons entry entries ih =>
      have stepped : ∃ next, setField sp entry.1 entry.2 = some next := by
        unfold setField
        cases known : Field.ofText entry.1 with
        | none => exact ⟨sp, rfl⟩
        | some field =>
            obtain ⟨next, assigned, -⟩ := assign_fieldText sp target field
            exact ⟨next, by rw [texts entry List.mem_cons_self field known]; exact assigned⟩
      obtain ⟨next, stepped⟩ := stepped
      obtain ⟨result, folded⟩ := ih
        (fun entry member => texts entry (List.mem_cons_of_mem _ member)) next
      exact ⟨result, by rw [List.foldlM_cons, stepped]; exact folded⟩

/-- Reading a hash that holds the texts of all fields of a socket, in any order
and among any other fields, gives that socket. -/
theorem toSocketProperty_of_fieldText {hash : Hash} {sp : SocketProperty}
    (texts : ∀ field, hash.lookup field.text = some (fieldText sp field)) :
    toSocketProperty hash = some sp := by
  obtain ⟨result, read⟩ := foldlM_setField_isSome sp hash.entries
    (by
      rintro ⟨key, value⟩ member field known
      have stored := texts field
      rw [Field.text_of_ofText known] at stored
      have lookup : hash.lookup key = some value := AList.mem_lookup_iff.mpr member
      rw [lookup] at stored
      exact Option.some.inj stored) {}
  have same : result = sp := by
    apply SocketProperty.ext_fieldText
    intro field
    have view := foldlM_setField_view (fieldText · field) field
      (fun value => (assign {} value field).map (fieldText · field))
      (fun _ _ _ assigned => assign_fieldText_congr assigned {})
      (fun _ _ _ _ differs assigned => fieldText_assign_of_ne (Ne.symm differs) assigned)
      hash.entries hash.nodupKeys read
    rw [show hash.entries.dlookup field.text = some (fieldText sp field) from texts field] at view
    obtain ⟨next, assigned, text⟩ := assign_fieldText {} sp field
    simp only [assigned, Option.map_some, Option.some.injEq] at view
    exact view.symm.trans text
  rw [← same]
  exact read

end NestDaq.Topology
