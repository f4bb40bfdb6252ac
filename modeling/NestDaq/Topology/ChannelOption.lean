import NestDaq.Text.Split
import NestDaq.Topology.Record

/-!
# Addresses of a channel option

The option string of a channel is a list of settings between commas, and the transport
layer makes one sub-socket for each `address=` setting. `ToChannelConfig` adds the
settings that are missing to a list of addresses and to no address, but not to a single
one.
-/

namespace NestDaq.Topology

open NestDaq.Store

/-- The key of an address setting. -/
def addressKey : Text :=
  "address=".toList

/-- The text of an address that is not given. -/
def unspecified : Text :=
  "unspecified".toList

/-- The addresses of some settings. -/
def addressValues (settings : List Text) : List Text :=
  settings.filterMap fun setting => setting.dropPrefix? addressKey

/-- The values of the `address=` settings of an option string, in order. -/
def addressEntries (option : Text) : List Text :=
  addressValues (Text.split option [','])

/-- The addresses that a text brings along behind a comma. -/
def extraEntries (text : Text) : List Text :=
  addressValues (Text.split text [',']).tail

@[simp]
theorem dropPrefix?_addressKey (address : Text) :
    (addressKey ++ address).dropPrefix? addressKey = some address :=
  List.dropPrefix?_append_of_beq address (beq_self_eq_true addressKey)

/-- The key of another setting. -/
def OtherKey (key : Text) : Prop :=
  ',' ∉ key ∧ ¬ key <+: addressKey ∧ ¬ addressKey <+: key

instance decidableOtherKey (key : Text) : Decidable (OtherKey key) :=
  inferInstanceAs (Decidable (_ ∧ _ ∧ _))

theorem OtherKey.dropPrefix? {key : Text} (otherKey : OtherKey key) (value : Text) :
    (key ++ value).dropPrefix? addressKey = none := by
  rw [Option.eq_none_iff_forall_ne_some]
  intro address found
  rcases List.dropPrefix?_eq_some_iff.mp found with ⟨front, equal, isKey⟩
  rw [beq_iff_eq] at isKey
  subst isKey
  rcases List.prefix_or_prefix_of_prefix (List.prefix_append key value)
    (equal ▸ List.prefix_append addressKey address) with shorter | longer
  · exact otherKey.2.1 shorter
  · exact otherKey.2.2 longer

/-- Another setting adds what its value has behind a comma. -/
theorem addressEntries_setting {key : Text} (otherKey : OtherKey key) (value : Text) :
    addressEntries (key ++ value) = extraEntries value := by
  rcases Text.exists_split_eq_cons value [','] with ⟨first, rest, parted⟩
  have setting : Text.split (key ++ value) [','] = (key ++ first) :: rest := by
    have single := Text.split_of_notMem otherKey.1
    exact @Text.split_append _ _ _ [] _ _ _ single parted
  rw [addressEntries, setting, addressValues, List.filterMap_cons, otherKey.dropPrefix?,
    extraEntries, parted,
    List.tail_cons, addressValues]

theorem extraEntries_of_notMem {text : Text} (free : ',' ∉ text) : extraEntries text = [] := by
  rw [extraEntries, Text.split_of_notMem free]
  rfl

/-- Addresses between the keys of their settings. -/
theorem addressEntries_join {addresses : List Text} (nonempty : addresses ≠ [])
    (free : ∀ address ∈ addresses, ',' ∉ address) :
    addressEntries (addressKey ++ Text.join addresses ",address=".toList) = addresses := by
  have behind : ",address=".toList = [','] ++ addressKey := rfl
  have settings : ∀ setting ∈ addresses.map (addressKey ++ ·), ',' ∉ setting := by
    intro setting member
    rcases List.mem_map.mp member with ⟨address, given, rfl⟩
    rw [List.mem_append, not_or]
    exact ⟨by decide, free address given⟩
  rw [behind, Text.append_join nonempty, addressEntries,
    Text.split_join (mt List.map_eq_nil_iff.mp nonempty) settings, addressValues,
    List.filterMap_map]
  have values : (fun setting : Text => setting.dropPrefix? addressKey) ∘ (addressKey ++ ·) =
      some := by
    funext address
    exact dropPrefix?_addressKey address
  rw [values, List.filterMap_some]

/-- The settings of `ToChannelConfig`. -/
def settings (sp : SocketProperty) : List Text :=
  ["name=".toList ++ sp.name, "type=".toList ++ sp.type, "method=".toList ++ sp.method,
    addressKey ++ configAddress sp, "transport=".toList ++ sp.transport,
    "rcvBufSize=".toList ++ Text.toString sp.rcvBufSize,
    "sndBufSize=".toList ++ Text.toString sp.sndBufSize,
    "rcvKernelSize=".toList ++ Text.toString sp.rcvKernelSize,
    "sndKernelSize=".toList ++ Text.toString sp.sndKernelSize,
    "linger=".toList ++ Text.toString sp.linger,
    "rateLogging=".toList ++ Text.toString sp.rateLogging,
    "portRangeMin=".toList ++ Text.toString sp.portRangeMin,
    "portRangeMax=".toList ++ Text.toString sp.portRangeMax,
    "autoBind=".toList ++ flagText sp.autoBind]

theorem toChannelConfig_eq (sp : SocketProperty) :
    toChannelConfig sp = Text.join (settings sp) [','] := by
  rw [settings, Text.join_cons]
  unfold toChannelConfig
  simp only [List.flatMap_cons, List.flatMap_nil, List.append_nil, List.append_assoc]
  rfl

/-- The settings are read one by one. -/
theorem addressEntries_join_settings {settings : List Text} (nonempty : settings ≠ []) :
    addressEntries (Text.join settings [',']) = settings.flatMap addressEntries := by
  rw [addressEntries, Text.split_join_eq_flatMap nonempty, addressValues, List.filterMap_flatMap]
  rfl

theorem comma_notMem_toString (n : Int) : ',' ∉ Text.toString n := by
  have inDecimal (m : Nat) : ',' ∉ Text.decimal m :=
    fun member => absurd (Text.isDigit_of_mem_decimal member) (by decide)
  cases n with
  | ofNat m => exact inDecimal m
  | negSucc m =>
      rw [Text.toString, List.mem_cons, not_or]
      exact ⟨by decide, inDecimal (m + 1)⟩

theorem comma_notMem_flagText (flag : Bool) : ',' ∉ flagText flag := by
  cases flag <;> decide

/-- The addresses of an option: those of its own setting, between those that the other
texts bring along. -/
theorem addressEntries_toChannelConfig (sp : SocketProperty) :
    addressEntries (toChannelConfig sp) =
      extraEntries sp.name ++ extraEntries sp.type ++ extraEntries sp.method ++
        addressEntries (addressKey ++ configAddress sp) ++ extraEntries sp.transport := by
  have nonempty : settings sp ≠ [] := List.cons_ne_nil _ _
  rw [toChannelConfig_eq, addressEntries_join_settings nonempty, settings]
  simp only [List.flatMap_cons, List.flatMap_nil]
  simp (disch := decide) only [addressEntries_setting]
  simp only [extraEntries_of_notMem (comma_notMem_toString _),
    extraEntries_of_notMem (comma_notMem_flagText _), List.append_nil, List.append_assoc]

/-! ## Given addresses -/

/-- The addresses that are given to a channel. -/
def givenAddresses (sp : SocketProperty) : List Text :=
  if sp.address = [] ∨ sp.address = unspecified then [] else Text.split sp.address [',']

/-- The number of addresses that a channel with `n` sub-sockets needs. -/
def addressCount (sp : SocketProperty) (n : Nat) : Nat :=
  max 1 (max n (givenAddresses sp).length)

/-- The given addresses and `unspecified` for the rest. -/
def paddedAddresses (sp : SocketProperty) (n : Nat) : List Text :=
  givenAddresses sp ++ List.replicate (addressCount sp n - (givenAddresses sp).length) unspecified

/-- The addresses that `ToChannelConfig` does not add. -/
def missingAddresses (sp : SocketProperty) (n : Nat) : List Text :=
  if (givenAddresses sp).length = 1 then List.replicate (n - 1) unspecified else []

theorem length_paddedAddresses (sp : SocketProperty) (n : Nat) :
    (paddedAddresses sp n).length = addressCount sp n := by
  rw [paddedAddresses, List.length_append, List.length_replicate, addressCount]
  omega

variable {sp : SocketProperty} {n : Nat}

theorem givenAddresses_of_none (none : sp.address = [] ∨ sp.address = unspecified) :
    givenAddresses sp = [] :=
  if_pos none

theorem givenAddresses_of_single (given : ¬ (sp.address = [] ∨ sp.address = unspecified))
    (single : ',' ∉ sp.address) : givenAddresses sp = [sp.address] := by
  rw [givenAddresses, if_neg given, Text.split_of_notMem single]

/-- A list of addresses has at least two. -/
theorem givenAddresses_of_list (list : ',' ∈ sp.address) :
    givenAddresses sp = Text.split sp.address [','] ∧ 2 ≤ (givenAddresses sp).length := by
  have given : ¬ (sp.address = [] ∨ sp.address = unspecified) := by
    rintro (empty | isUnspecified)
    · rw [empty] at list
      cases list
    · rw [isUnspecified] at list
      exact absurd list (by decide)
  have split : givenAddresses sp = Text.split sp.address [','] := if_neg given
  apply And.intro split
  rcases List.append_of_mem list with ⟨first, second, cut⟩
  rw [split, cut, Text.split_append_delimiter List.mem_cons_self, List.length_append]
  have firstParts := List.length_pos_of_ne_nil (Text.split_ne_nil first [','])
  have secondParts := List.length_pos_of_ne_nil (Text.split_ne_nil second [','])
  omega

theorem unspecifiedAddresses_eq (count : sp.numSockets = n) :
    unspecifiedAddresses sp.numSockets =
      Text.join (List.replicate (max 1 n) unspecified) ",address=".toList := by
  have positive : max 1 n = n - 1 + 1 := by omega
  have number : (sp.numSockets - 1).toNat = n - 1 := by omega
  have setting : ",address=unspecified".toList = ",address=".toList ++ unspecified := rfl
  rw [positive, List.replicate_succ, Text.join_cons, List.flatMap_replicate]
  change unspecified ++
    (List.replicate (sp.numSockets - 1).toNat ",address=unspecified".toList).flatten = _
  rw [setting, number]

theorem configAddress_of_list (list : ',' ∈ sp.address) :
    configAddress sp = Text.join (Text.split sp.address [','] ++
      List.replicate (sp.numSockets - (Text.split sp.address [',']).length).toNat unspecified)
        ",address=".toList :=
  if_pos (Text.find_ne_none_iff.mpr list)

theorem configAddress_of_single (given : ¬ (sp.address = [] ∨ sp.address = unspecified))
    (single : ',' ∉ sp.address) : configAddress sp = sp.address := by
  rw [configAddress, if_neg (mt Text.find_ne_none_iff.mp single)]
  exact if_pos (not_or.mp given)

theorem configAddress_of_none (none : sp.address = [] ∨ sp.address = unspecified) :
    configAddress sp = unspecifiedAddresses sp.numSockets := by
  rcases none with empty | isUnspecified
  · rw [configAddress, empty]
    rfl
  · rw [configAddress, isUnspecified]
    rfl

/-- The address settings of a channel, but for those that a single address lacks, are
the padded addresses. -/
theorem exists_configAddress (count : sp.numSockets = n) :
    ∃ addresses : List Text, addresses ≠ [] ∧ (∀ address ∈ addresses, ',' ∉ address) ∧
      configAddress sp = Text.join addresses ",address=".toList ∧
      addresses ++ missingAddresses sp n = paddedAddresses sp n := by
  have unspecifiedFree : ∀ size, ∀ address ∈ List.replicate size unspecified, ',' ∉ address := by
    intro size address member
    rw [List.eq_of_mem_replicate member]
    decide
  by_cases list : ',' ∈ sp.address
  · rcases givenAddresses_of_list list with ⟨given, several⟩
    have missing : (sp.numSockets - (Text.split sp.address [',']).length).toNat =
        addressCount sp n - (givenAddresses sp).length := by
      rw [addressCount, ← given, count]
      omega
    apply Exists.intro (paddedAddresses sp n)
    constructor
    · exact List.append_ne_nil_of_left_ne_nil (List.ne_nil_of_length_pos (by omega)) _
    constructor
    · intro address member
      rcases List.mem_append.mp member with inGiven | padding
      · rw [given] at inGiven
        exact fun comma => Text.notMem_of_mem_split inGiven comma List.mem_cons_self
      · exact unspecifiedFree _ address padding
    constructor
    · rw [configAddress_of_list list, missing, ← given, paddedAddresses]
    · rw [missingAddresses, if_neg (by omega), List.append_nil]
  · by_cases none : sp.address = [] ∨ sp.address = unspecified
    · have given := givenAddresses_of_none none
      apply Exists.intro (List.replicate (max 1 n) unspecified)
      constructor
      · simp
      constructor
      · exact unspecifiedFree _
      constructor
      · rw [configAddress_of_none none, unspecifiedAddresses_eq count]
      · rw [missingAddresses, paddedAddresses, addressCount, given]
        simp
    · have given := givenAddresses_of_single none list
      apply Exists.intro [sp.address]
      constructor
      · exact List.cons_ne_nil _ _
      constructor
      · simpa using list
      constructor
      · rw [configAddress_of_single none list, Text.join_singleton]
      · rw [missingAddresses, paddedAddresses, addressCount, given]
        simp
        omega

theorem addressEntries_configAddress (count : sp.numSockets = n) :
    addressEntries (addressKey ++ configAddress sp) ++ missingAddresses sp n =
      paddedAddresses sp n := by
  rcases exists_configAddress count with ⟨addresses, nonempty, free, text, padded⟩
  rw [text, addressEntries_join nonempty free, padded]

/-- The text of the address settings is determined by the addresses. -/
theorem join_addressEntries (count : sp.numSockets = n) :
    Text.join (addressEntries (addressKey ++ configAddress sp)) ",address=".toList =
      configAddress sp := by
  rcases exists_configAddress count with ⟨addresses, nonempty, free, text, _⟩
  rw [text, addressEntries_join nonempty free]

/-! ## Configured and published -/

/-- The hashes in which the number of sub-sockets is published: that of the channel and
those of its sub-sockets. -/
def Publishes (sp : SocketProperty) (hash : Hash) : Prop :=
  hash = setFields ∅ (channelFields sp) ∨ ∃ chans, hash = TopologyConfig.subSocketFields sp chans

/-- The option has the given addresses and `unspecified` for the rest, as many as are
needed and not fewer than the number of sub-sockets that is published. -/
structure ConfiguresPublished (sp : SocketProperty) (n : Nat) : Prop where
  entries : addressEntries (toChannelConfig sp) = paddedAddresses sp n
  length : (addressEntries (toChannelConfig sp)).length = addressCount sp n
  published : ∀ hash, Publishes sp hash → ∃ m : Nat,
    hash.lookup (Field.text .numSockets) = some (Text.toString m) ∧
      m ≤ (addressEntries (toChannelConfig sp)).length

/-- No other text of the channel brings along an address, but for the ones that a single
address lacks, which the transport may bring. -/
structure OwnAddresses (sp : SocketProperty) (n : Nat) : Prop where
  name : extraEntries sp.name = []
  type : extraEntries sp.type = []
  method : extraEntries sp.method = []
  transport : extraEntries sp.transport = missingAddresses sp n

theorem lookup_numSockets {hash : Hash} (publishes : Publishes sp hash) :
    hash.lookup (Field.text .numSockets) = some (Text.toString sp.numSockets) := by
  rcases publishes with rfl | ⟨chans, rfl⟩
  · exact lookup_channelFields ∅ sp .numSockets
  · exact (lookup_subSocketFields_settings chans).1

theorem missingAddresses_cases (sp : SocketProperty) (n : Nat) :
    missingAddresses sp n = [] ∨ ∃ address, address ≠ unspecified ∧
      addressEntries (addressKey ++ configAddress sp) = [address] := by
  by_cases list : ',' ∈ sp.address
  · exact Or.inl (if_neg (by have several := (givenAddresses_of_list list).2; omega))
  · by_cases none : sp.address = [] ∨ sp.address = unspecified
    · apply Or.inl
      rw [missingAddresses, givenAddresses_of_none none, if_neg (by decide)]
    · have single := @addressEntries_join [sp.address] (List.cons_ne_nil _ _) (by simpa using list)
      rw [Text.join_singleton, ← configAddress_of_single none list] at single
      exact Or.inr ⟨configAddress sp, configAddress_of_single none list ▸ (not_or.mp none).2,
        single⟩

/-- What stands around the own addresses is what they lack. -/
theorem append_eq_append_iff {entries missing front back : List Text}
    (same : ∀ address ∈ missing, address = unspecified)
    (single : missing = [] ∨ ∃ address, address ≠ unspecified ∧ entries = [address]) :
    front ++ entries ++ back = entries ++ missing ↔ front = [] ∧ back = missing := by
  constructor
  · intro equal
    rcases single with rfl | ⟨address, specified, rfl⟩
    · have lengths := congrArg List.length equal
      simp only [List.length_append, List.length_nil] at lengths
      exact ⟨List.eq_nil_of_length_eq_zero (by omega), List.eq_nil_of_length_eq_zero (by omega)⟩
    · cases front with
      | nil => exact ⟨rfl, List.append_cancel_left equal⟩
      | cons first front =>
          simp only [List.cons_append, List.append_assoc, List.nil_append, List.cons.injEq] at equal
          have member : address ∈ missing := by
            rw [← equal.2]
            exact List.mem_append_right _ List.mem_cons_self
          exact absurd (same address member) specified
  · rintro ⟨rfl, rfl⟩
    rw [List.nil_append]

/-- The option configures the published number of sub-sockets exactly if a single address
comes with at most one of them and the other texts of the channel bring no addresses, or
the transport brings exactly those that are missing. -/
theorem configuresPublished_iff {sp : SocketProperty} {n : Nat} (count : sp.numSockets = n) :
    ConfiguresPublished sp n ↔ OwnAddresses sp n := by
  have isUnspecified : ∀ address ∈ missingAddresses sp n, address = unspecified := by
    intro address member
    rw [missingAddresses] at member
    split at member
    · exact List.eq_of_mem_replicate member
    · cases member
  have entries : addressEntries (toChannelConfig sp) = paddedAddresses sp n ↔
      OwnAddresses sp n := by
    rw [addressEntries_toChannelConfig, ← addressEntries_configAddress count,
      append_eq_append_iff isUnspecified (missingAddresses_cases sp n), List.append_eq_nil_iff,
      List.append_eq_nil_iff]
    constructor
    · rintro ⟨⟨⟨name, type⟩, method⟩, transport⟩
      exact ⟨name, type, method, transport⟩
    · rintro ⟨name, type, method, transport⟩
      exact ⟨⟨⟨name, type⟩, method⟩, transport⟩
  constructor
  · intro configures
    exact entries.mp configures.entries
  · intro own
    have padded := entries.mpr own
    have length : (addressEntries (toChannelConfig sp)).length = addressCount sp n := by
      rw [padded, length_paddedAddresses]
    apply ConfiguresPublished.mk padded length
    intro hash publishes
    apply Exists.intro n
    rw [length, lookup_numSockets publishes, count]
    exact ⟨rfl, le_trans (le_max_left _ _) (le_max_right _ _)⟩

/-- A channel with two sub-sockets at one address. -/
def portChannel : SocketProperty :=
  { name := "in".toList, type := "pull".toList, method := "bind".toList
    address := "tcp://*:5555".toList, numSockets := 2 }

/-- Its option has one address. -/
theorem portChannel_not_configuresPublished :
    portChannel.numSockets = (2 : Nat) ∧ ¬ ConfiguresPublished portChannel 2 := by
  apply And.intro rfl
  intro configures
  have length := configures.length
  revert length
  decide +kernel

/-- With two addresses for three sub-sockets the third is filled in. -/
theorem portChannel_configuresPublished :
    ConfiguresPublished
      { portChannel with address := "tcp://*:5555,tcp://*:5556".toList, numSockets := 3 } 3 :=
  (configuresPublished_iff rfl).mpr (by constructor <;> decide +kernel)

end NestDaq.Topology
