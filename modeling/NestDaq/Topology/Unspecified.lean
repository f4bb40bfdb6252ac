import NestDaq.Topology.ChannelOption
import NestDaq.Topology.Exchange

/-!
# Channels without an address

`ResolveConnectAddress` resolves the connect channels whose address is empty or
`unspecified`. A channel with one socket gets the address of a peer in place of its own.
A channel with several sockets appends the addresses of its peers to its own: behind
`unspecified` they are one position later than behind the empty address.
-/

namespace NestDaq.Topology

open NestDaq.Registry
open NestDaq.Store

namespace TopologyConfig

section Others

variable (config : TopologyConfig) (channels : MQChannel) (db : Db)

/-- The instance with other connect channels. -/
def withConnect : TopologyConfig :=
  { config with fConnectChannels := channels }

theorem readSubSockets_withConnect (views : Nat → View) (peerIP : Option Text) (keys : List Text)
    (time : Nat) :
    (config.withConnect channels).readSubSockets views peerIP keys time =
      config.readSubSockets views peerIP keys time := by
  have attempts : (config.withConnect channels).attempts = config.attempts := rfl
  induction keys generalizing time peerIP with
  | nil => rfl
  | cons key keys ih => simp only [readSubSockets, ih, attempts]

theorem peerAddress_withConnect (peer : Text) :
    (config.withConnect channels).peerAddress db peer = config.peerAddress db peer := by
  simp only [peerAddress, readPeerAddress, readSubSockets_withConnect]
  rfl

theorem resolvePeers_withConnect (sp : SocketProperty) (me : Text) (size : Nat)
    (peers : List Text) (res : SocketProperty) (peerIndex : Nat) (is1to1 : Bool) :
    (config.withConnect channels).resolvePeers db sp me size peers res peerIndex is1to1 =
      config.resolvePeers db sp me size peers res peerIndex is1to1 := by
  induction peers generalizing res peerIndex is1to1 with
  | nil => rfl
  | cons peer peers ih =>
      simp only [resolvePeers, ih, peerAddress_withConnect]
      rfl

theorem resolveChannel_withConnect (sp : SocketProperty) :
    (config.withConnect channels).resolveChannel db sp = config.resolveChannel db sp := by
  simp only [resolveChannel, resolvePeers_withConnect]
  rfl

end Others

section Options

variable (config : TopologyConfig) (db : Db)

/-- The option of one channel, nothing for a channel with an address. -/
def channelOption (sp : SocketProperty) : Option (Except Fault (Text × Text)) :=
  if hasAddress sp then none
  else some ((config.resolveChannel db sp).map fun res => (res.name, toChannelConfig res))

theorem map_mapM {α β γ ε : Type} (f : α → Except ε β) (g : β → γ) (items : List α) :
    (items.mapM f).map (List.map g) = items.mapM fun item => (f item).map g := by
  induction items with
  | nil => rfl
  | cons item items ih =>
      rw [List.mapM_cons, List.mapM_cons, ← ih]
      cases f item with
      | error fault => rfl
      | ok value => cases items.mapM f <;> rfl

/-- The options are made channel by channel, in the order of their names. -/
theorem connectOptions_eq : config.connectOptions db =
    ((sortUnique config.fConnectChannels.keys).filterMap fun name =>
      (config.fConnectChannels.lookup name).bind (config.channelOption db)).mapM id := by
  rw [connectOptions, resolveConnectAddress, map_mapM, ordered]
  have each : (fun sp => (config.resolveChannel db sp).map fun res =>
      (res.name, toChannelConfig res)) = id ∘ fun sp => (config.resolveChannel db sp).map fun res =>
      (res.name, toChannelConfig res) := rfl
  rw [each, ← List.mapM_map, List.map_filterMap, ← List.filterMap_eq_filter,
    List.filterMap_filterMap,
    List.map_filterMap]
  congr 1
  apply List.filterMap_congr
  intro name _
  cases config.fConnectChannels.lookup name with
  | none => rfl
  | some sp =>
      simp only [Option.map_some, Option.bind_some, channelOption]
      by_cases given : hasAddress sp <;> simp [given, Option.guard]

end Options

/-! ## The loop over the peers -/

variable {config : TopologyConfig} {db : Db} {sp : SocketProperty}

/-- The address that a channel with several sockets appends for a peer. -/
def peerElement (config : TopologyConfig) (db : Db) (me peer : Text) : Except Fault Text :=
  match toSocketProperty (hgetall db peer) with
  | none => .error .number
  | some peerProperty => do
      let address ← config.peerAddress db peer
      let myIndex := (lrange db (config.peerListKey peer)).idxOf me
      if peerProperty.numSockets ≤ 1 then
        if address.length = 1 then element address 0 else throw .assertion
      else if myIndex < address.length then element address myIndex else throw .assertion

/-- The addresses of the peers of a channel, in the order of the peers. -/
def foundAddresses (config : TopologyConfig) (db : Db) (sp : SocketProperty) :
    Except Fault (List Text) :=
  (lrange db (config.peerListKey (config.channelKey sp.name))).mapM
    (config.peerElement db (config.channelKey sp.name))

/-- With several sockets the addresses of all peers are appended. -/
theorem resolvePeers_of_several (several : ¬ sp.numSockets ≤ 1) (me : Text) (size : Nat)
    (peers : List Text) (res : SocketProperty) (peerIndex : Nat) :
    config.resolvePeers db sp me size peers res peerIndex false =
      (peers.mapM (config.peerElement db me)).map fun found => found.foldl appendAddress res := by
  induction peers generalizing res peerIndex with
  | nil => rfl
  | cons peer peers ih =>
      rw [List.mapM_cons, peerElement]
      simp only [resolvePeers, several, false_and, if_false, Bool.false_eq_true, ih]
      cases toSocketProperty (hgetall db peer) with
      | none => rfl
      | some property =>
          simp only
          cases config.peerAddress db peer with
          | error fault => rfl
          | ok address =>
              simp only [ok_bind]
              have appended (index : Nat) :
                  (do
                    let found ← element address index
                    (peers.mapM (config.peerElement db me)).map
                      fun later : List Text =>
                        later.foldl appendAddress (appendAddress res found)) =
                    (do
                      let found ← element address index
                      let later ← peers.mapM (config.peerElement db me)
                      pure (found :: later)).map
                        fun found : List Text => found.foldl appendAddress res := by
                cases element address index with
                | error fault => rfl
                | ok found => cases peers.mapM (config.peerElement db me) <;> rfl
              split
              · split
                · exact appended 0
                · rfl
              · split
                · exact appended _
                · rfl

/-- The name and the option of a channel. -/
def nameOption (res : SocketProperty) : Text × Text :=
  (res.name, toChannelConfig res)

/-- With one socket the addresses are assigned, and two channels that differ in their
address end up with the same option if they begin with the same. -/
theorem resolvePeers_of_single {first second : SocketProperty} (single : first.numSockets ≤ 1)
    (sameSockets : second.numSockets = first.numSockets) (me : Text) (size : Nat)
    (peers : List Text) {res other : SocketProperty} (peerIndex : Nat) (is1to1 : Bool)
    (rest : ∀ address, { res with address := address } = { other with address := address })
    (option : nameOption res = nameOption other) :
    (config.resolvePeers db first me size peers res peerIndex is1to1).map nameOption =
      (config.resolvePeers db second me size peers other peerIndex is1to1).map nameOption := by
  induction peers generalizing res other peerIndex is1to1 with
  | nil => exact congrArg Except.ok option
  | cons peer peers ih =>
      have assigned (index : Nat) (address : List Text)
          (later later' : SocketProperty → Except Fault SocketProperty)
          (same : ∀ next, (later next).map nameOption = (later' next).map nameOption) :
          (do
            let found ← element address index
            later { res with address := found }).map nameOption =
          (do
            let found ← element address index
            later' { other with address := found }).map nameOption := by
        cases element address index with
        | error fault => rfl
        | ok found =>
            rw [ok_bind, ok_bind, rest found]
            exact same _
      simp only [resolvePeers, sameSockets, single, true_and]
      split
      · exact ih _ _ rest option
      · cases toSocketProperty (hgetall db peer) with
        | none => rfl
        | some property =>
            simp only
            cases config.peerAddress db peer with
            | error fault => rfl
            | ok address =>
                simp only [ok_bind]
                split
                · split
                  · exact assigned 0 address pure pure fun _ => rfl
                  · exact ih _ _ rest option
                · rw [if_pos trivial, if_pos trivial]
                  exact assigned _ address
                    (config.resolvePeers db first me size peers · (peerIndex + 1) is1to1)
                    (config.resolvePeers db second me size peers · (peerIndex + 1) is1to1)
                    fun next => ih _ _ (fun _ => rfl) rfl

theorem foldl_appendAddress_of_ne_nil {res : SocketProperty} (nonempty : res.address ≠ [])
    (found : List Text) :
    found.foldl appendAddress res =
      { res with address := Text.join (res.address :: found) [','] } := by
  induction found generalizing res with
  | nil => rw [List.foldl_nil, Text.join_singleton]
  | cons first found ih =>
      have joined : res.address ++ [','] ++ first ≠ [] := by simp
      rw [List.foldl_cons, appendAddress, if_neg nonempty, ih joined, Text.join_cons,
        Text.join_cons, List.flatMap_cons]
      simp only [List.append_assoc]

/-- Empty addresses are dropped as long as there is no other. -/
theorem foldl_appendAddress_of_nil {res : SocketProperty} (empty : res.address = [])
    (found : List Text) :
    found.foldl appendAddress res =
      { res with address := Text.join (found.dropWhile (· = [])) [','] } := by
  induction found with
  | nil =>
      cases res
      simp_all [Text.join]
  | cons first found ih =>
      rw [List.foldl_cons, appendAddress, if_pos empty]
      by_cases none : first = []
      · have same : { res with address := first } = res := by
          cases res
          simp_all
        rw [same, ih, List.dropWhile_cons_of_pos (by simpa using none)]
      · rw [foldl_appendAddress_of_ne_nil none, List.dropWhile_cons_of_neg (by simpa using none)]

/-- The addresses in some texts. -/
def entries (found : List Text) : List Text :=
  found.flatMap fun text => Text.split text [',']

/-- The empty addresses that are dropped. -/
theorem entries_dropWhile (found : List Text) : ∃ dropped,
    entries found = List.replicate dropped [] ++ entries (found.dropWhile (· = [])) := by
  apply Exists.intro (found.takeWhile (· = [])).length
  have empty : found.takeWhile (· = []) = List.replicate (found.takeWhile (· = [])).length [] := by
    apply List.eq_replicate_of_mem
    intro text member
    simpa using List.mem_takeWhile_imp member
  calc
    entries found = entries (found.takeWhile (· = [])) ++ entries (found.dropWhile (· = [])) := by
      rw [entries, entries, entries, ← List.flatMap_append, List.takeWhile_append_dropWhile]
    _ = List.replicate (found.takeWhile (· = [])).length [] ++
        entries (found.dropWhile (· = [])) := by
      congr 1
      rw [empty, entries, List.flatMap_replicate, Text.split_nil, List.length_replicate]
      exact List.flatten_replicate_singleton

/-- The number of addresses that are appended to `unspecified` is less than that of the
sockets, and all are `unspecified` again. -/
def OnlyUnspecified (found : List Text) (n : Nat) : Prop :=
  (∀ entry ∈ entries found, entry = unspecified) ∧ (entries found).length < n

/-! ## Entries of the two options -/

variable {n : Nat}

/-- The address settings of a channel. -/
def ownEntries (sp : SocketProperty) : List Text :=
  addressEntries (addressKey ++ configAddress sp)

theorem ownEntries_of_none (count : sp.numSockets = n)
    (none : sp.address = [] ∨ sp.address = unspecified) :
    ownEntries sp = List.replicate (max 1 n) unspecified := by
  have padded := addressEntries_configAddress count
  rw [missingAddresses, paddedAddresses, addressCount, givenAddresses_of_none none] at padded
  simpa [ownEntries] using padded

theorem ownEntries_of_single (given : ¬ (sp.address = [] ∨ sp.address = unspecified))
    (single : ',' ∉ sp.address) : ownEntries sp = [sp.address] := by
  have entries := @addressEntries_join [sp.address] (List.cons_ne_nil _ _) (by simpa using single)
  rw [Text.join_singleton, ← configAddress_of_single given single] at entries
  rw [ownEntries, entries, configAddress_of_single given single]

theorem ownEntries_of_list (count : sp.numSockets = n) (list : ',' ∈ sp.address) :
    ownEntries sp = Text.split sp.address [','] ++
      List.replicate (n - (Text.split sp.address [',']).length) unspecified := by
  have padded := addressEntries_configAddress count
  rcases givenAddresses_of_list list with ⟨given, several⟩
  rw [given] at several
  have number : addressCount sp n - (Text.split sp.address [',']).length =
      n - (Text.split sp.address [',']).length := by
    rw [addressCount, given]
    omega
  rw [missingAddresses, paddedAddresses, given, if_neg (by omega), List.append_nil, number]
    at padded
  exact padded

/-- Options that differ in the address only are the same if their entries are. -/
theorem toChannelConfig_eq_iff (count : sp.numSockets = n) {first second : Text} :
    toChannelConfig { sp with address := first } = toChannelConfig { sp with address := second } ↔
      ownEntries { sp with address := first } = ownEntries { sp with address := second } := by
  constructor
  · intro equal
    have entries := congrArg addressEntries equal
    rw [addressEntries_toChannelConfig, addressEntries_toChannelConfig] at entries
    exact List.append_cancel_left (List.append_cancel_right entries)
  · intro equal
    have firstText := @join_addressEntries { sp with address := first } n count
    have secondText := @join_addressEntries { sp with address := second } n count
    have same : configAddress { sp with address := first } =
        configAddress { sp with address := second } := by
      rw [← firstText, ← secondText]
      exact congrArg (Text.join · ",address=".toList) equal
    unfold toChannelConfig
    rw [same]

/-- A list that can be moved by one position along copies of an element. -/
theorem eq_of_append_replicate_succ {items : List Text} {item : Text} {size : Nat}
    (equal : items ++ List.replicate (size + 1) item = item ::
      (items ++ List.replicate size item)) :
    ∀ other ∈ items, other = item := by
  induction items with
  | nil => exact fun _ member => absurd member List.not_mem_nil
  | cons first items ih =>
      rw [List.cons_append, List.cons_append, List.cons.injEq] at equal
      rcases equal with ⟨rfl, rest⟩
      intro other member
      rcases List.mem_cons.mp member with rfl | later
      · rfl
      · exact ih rest other later

/-- A list without its first elements, filled up with another element, is the whole list
behind that element only if nothing else is in the list. -/
theorem forall_eq_of_append_replicate {items rest : List Text} {item other : Text}
    {dropped size : Nat} (differs : other ≠ item)
    (cut : items = List.replicate dropped other ++ rest)
    (equal : rest ++ List.replicate (size - rest.length) item =
      item :: items ++ List.replicate (size - (items.length + 1)) item) :
    (∀ element ∈ items, element = item) ∧ items.length < size := by
  have lengths := congrArg List.length equal
  have counts := congrArg (List.count item) equal
  have cutLength := congrArg List.length cut
  have cutCount := congrArg (List.count item) cut
  rw [List.cons_append, List.count_cons_self] at counts
  simp only [List.length_append, List.length_cons, List.length_replicate] at lengths cutLength
  simp only [List.count_append, List.count_replicate_self] at counts
  rw [List.count_append, List.count_replicate, if_neg (by simpa using differs), Nat.zero_add]
    at cutCount
  have below : items.length < size := by omega
  have none : dropped = 0 := by omega
  rw [none, List.replicate_zero, List.nil_append] at cut
  rw [← cut] at equal
  have further : size - items.length = size - (items.length + 1) + 1 := by omega
  rw [further, List.cons_append] at equal
  exact ⟨eq_of_append_replicate_succ equal, below⟩

theorem split_join_entries {found : List Text} (nonempty : found ≠ []) :
    Text.split (Text.join found [',']) [','] = entries found :=
  Text.split_join_eq_flatMap nonempty

/-- Behind `unspecified` the addresses are one position later. -/
theorem ownEntries_behind (count : sp.numSockets = n) {found : List Text} (nonempty : found ≠ [])
    (behind : sp.address = Text.join (unspecified :: found) [',']) :
    ownEntries sp = unspecified :: entries found ++
      List.replicate (n - ((entries found).length + 1)) unspecified := by
  have list : ',' ∈ sp.address := by
    rw [behind]
    cases found with
    | nil => exact absurd rfl nonempty
    | cons first found => simp
  have parts : Text.split sp.address [','] = unspecified :: entries found := by
    rw [behind, split_join_entries (List.cons_ne_nil _ _), entries, List.flatMap_cons,
      Text.split_of_notMem (by decide)]
    rfl
  rw [ownEntries_of_list count list, parts, List.length_cons]

/-- Where all addresses are `unspecified`, the option says so for each socket. -/
theorem ownEntries_of_onlyUnspecified (count : sp.numSockets = n) {found : List Text}
    (nonempty : found ≠ []) (only : OnlyUnspecified found n)
    (joined : sp.address = Text.join found [',']) :
    ownEntries sp = List.replicate n unspecified := by
  rcases only with ⟨all, fewer⟩
  have parts : Text.split sp.address [','] = entries found := by
    rw [joined, split_join_entries nonempty]
  by_cases list : ',' ∈ sp.address
  · rw [ownEntries_of_list count list, parts, List.eq_replicate_of_mem all,
      List.length_replicate, List.replicate_append_replicate]
    congr 1
    omega
  · have single := Text.split_of_notMem list
    rw [parts] at single
    have isUnspecified := all sp.address (single ▸ List.mem_cons_self)
    rw [ownEntries_of_none count (Or.inr isUnspecified)]
    congr 1
    omega

/-- The addresses that are found in front of others, or behind `unspecified`, give the
same entries only where they are all `unspecified`. -/
theorem onlyUnspecified_of_ownEntries_eq {first second : SocketProperty} {found : List Text}
    (several : 1 < n) (firstCount : first.numSockets = n) (secondCount : second.numSockets = n)
    (nonempty : found ≠ [])
    (joined : first.address = Text.join (found.dropWhile (· = [])) [','])
    (behind : second.address = Text.join (unspecified :: found) [','])
    (equal : ownEntries first = ownEntries second) : OnlyUnspecified found n := by
  rw [ownEntries_behind secondCount nonempty behind] at equal
  by_cases list : ',' ∈ first.address
  · rw [ownEntries_of_list firstCount list] at equal
    have rest : found.dropWhile (· = []) ≠ [] := by
      intro none
      rw [joined, none] at list
      cases list
    rw [joined, split_join_entries rest] at equal
    rcases entries_dropWhile found with ⟨dropped, cut⟩
    exact forall_eq_of_append_replicate (by decide) cut equal
  · by_cases none : first.address = [] ∨ first.address = unspecified
    · rw [ownEntries_of_none firstCount none] at equal
      have lengths := congrArg List.length equal
      simp only [List.length_append, List.length_cons, List.length_replicate] at lengths
      constructor
      · intro entry member
        have inReplicate : entry ∈ List.replicate (max 1 n) unspecified := by
          rw [equal]
          exact List.mem_append_left _ (List.mem_cons_of_mem _ member)
        exact List.eq_of_mem_replicate inReplicate
      · omega
    · rw [ownEntries_of_single none list, List.cons_append, List.cons.injEq] at equal
      exact absurd (Or.inr equal.1) none

theorem dropWhile_of_onlyUnspecified {found : List Text} (only : OnlyUnspecified found n) :
    found.dropWhile (· = []) = found := by
  cases found with
  | nil => rfl
  | cons first found =>
      apply List.dropWhile_cons_of_neg
      intro empty
      have member : ([] : Text) ∈ entries (first :: found) := by
        rw [of_decide_eq_true empty, entries, List.flatMap_cons, Text.split_nil]
        exact List.mem_append_left _ (List.mem_singleton_self _)
      exact absurd (only.1 [] member) (by decide)

/-- The two addresses that a channel with several sockets ends up with. -/
theorem toChannelConfig_append_iff (count : sp.numSockets = n) (several : 1 < n)
    (found : List Text) :
    toChannelConfig (found.foldl appendAddress { sp with address := [] }) =
        toChannelConfig (found.foldl appendAddress { sp with address := unspecified }) ↔
      OnlyUnspecified found n := by
  rw [foldl_appendAddress_of_nil rfl, foldl_appendAddress_of_ne_nil (List.cons_ne_nil _ _),
    toChannelConfig_eq_iff count]
  by_cases noPeers : found = []
  · subst noPeers
    have first := @ownEntries_of_none { sp with address := [] } n count (Or.inl rfl)
    have second := @ownEntries_of_none { sp with address := Text.join [unspecified] [','] } n count
      (Or.inr (Text.join_singleton unspecified [',']))
    apply iff_of_true (first.trans second.symm)
    exact ⟨fun _ member => absurd member List.not_mem_nil, Nat.zero_lt_of_lt several⟩
  · constructor
    · exact onlyUnspecified_of_ownEntries_eq several count count noPeers rfl rfl
    · intro only
      have first := @ownEntries_of_onlyUnspecified { sp with address := Text.join found [','] } n
        count found noPeers only rfl
      have second := @ownEntries_behind
        { sp with address := Text.join (unspecified :: found) [','] } n count found noPeers rfl
      rw [dropWhile_of_onlyUnspecified only, first, second, List.eq_replicate_of_mem only.1,
        List.length_replicate, ← List.replicate_succ, List.replicate_append_replicate]
      congr 1
      have fewer := only.2
      omega

/-! ## The empty address and `unspecified` -/

/-- The instance with a channel of the given address among its connect channels. -/
def withChannel (config : TopologyConfig) (channels : MQChannel) (sp : SocketProperty)
    (address : Text) : TopologyConfig :=
  config.withConnect (channels.insert sp.name { sp with address := address })

/-- `ResolveConnectAddress` makes the same options where the channel has no address and
where it is `unspecified`, whatever the other channels are. -/
def SameOptions (config : TopologyConfig) (db : Db) (sp : SocketProperty) : Prop :=
  ∀ channels : MQChannel, (config.withChannel channels sp []).connectOptions db =
    (config.withChannel channels sp unspecified).connectOptions db

/-- The channel has at most one socket, or what is found for it is `unspecified` for some
of its sockets. -/
def FindsUnspecified (config : TopologyConfig) (db : Db) (sp : SocketProperty) : Prop :=
  sp.numSockets ≤ 1 ∨ ∀ found, config.foundAddresses db sp = .ok found →
    OnlyUnspecified found sp.numSockets.toNat

theorem nameOption_unspecified (sp : SocketProperty) :
    nameOption { sp with address := [] } = nameOption { sp with address := unspecified } := by
  have first := @configAddress_of_none { sp with address := [] } (Or.inl rfl)
  have second := @configAddress_of_none { sp with address := unspecified } (Or.inr rfl)
  unfold nameOption toChannelConfig
  rw [first, second]

theorem nameOption_eq_iff {first second : SocketProperty} :
    nameOption first = nameOption second ↔
      first.name = second.name ∧ toChannelConfig first = toChannelConfig second :=
  Prod.ext_iff

theorem foldl_appendAddress_name (found : List Text) (res : SocketProperty) :
    (found.foldl appendAddress res).name = res.name := by
  induction found generalizing res with
  | nil => rfl
  | cons first found ih => exact ih _

theorem resolveChannel_map_eq_iff (config : TopologyConfig) (db : Db) (sp : SocketProperty) :
    (config.resolveChannel db { sp with address := [] }).map nameOption =
        (config.resolveChannel db { sp with address := unspecified }).map nameOption ↔
      FindsUnspecified config db sp := by
  by_cases single : sp.numSockets ≤ 1
  · apply iff_of_true _ (Or.inl single)
    exact @resolvePeers_of_single config db { sp with address := [] }
      { sp with address := unspecified } single rfl _ _ _ _ _ 0 false (fun _ => rfl)
      (nameOption_unspecified sp)
  · have count : sp.numSockets = sp.numSockets.toNat := by omega
    have finds : FindsUnspecified config db sp ↔ ∀ found, config.foundAddresses db sp = .ok found →
        OnlyUnspecified found sp.numSockets.toNat :=
      or_iff_right single
    have resolved (address : Text) : config.resolveChannel db { sp with address := address } =
        (config.foundAddresses db sp).map fun found =>
          found.foldl appendAddress { sp with address := address } :=
      @resolvePeers_of_several config db { sp with address := address } single _ _ _ _ _
    rw [finds, resolved, resolved]
    cases config.foundAddresses db sp with
    | error fault => exact iff_of_true rfl nofun
    | ok found =>
        have mapped (address : Text) : Except.map nameOption (Except.map
            (fun found => found.foldl appendAddress { sp with address := address })
              (Except.ok found : Except Fault (List Text))) =
            .ok (nameOption (found.foldl appendAddress { sp with address := address })) := rfl
        rw [mapped, mapped, Except.ok.injEq, nameOption_eq_iff, foldl_appendAddress_name,
          foldl_appendAddress_name, toChannelConfig_append_iff count (by omega) found]
        constructor
        · rintro ⟨_, only⟩ other equal
          exact Except.ok.inj equal ▸ only
        · intro only
          exact ⟨rfl, only found rfl⟩

theorem channelOption_of_none {address : Text} (none : address = [] ∨ address = unspecified) :
    config.channelOption db { sp with address := address } =
      some ((config.resolveChannel db { sp with address := address }).map nameOption) := by
  have open' : hasAddress { sp with address := address } = false := by
    rcases none with rfl | rfl <;> rfl
  rw [channelOption, open', if_neg Bool.false_ne_true]
  rfl

theorem mapM_singleton {name : Text} {value : Except Fault (Text × Text)}
    {rest : Text → Option (Except Fault (Text × Text))} :
    ([name].filterMap fun other => if other = name then some value else rest other).mapM id =
      value.map fun option => [option] := by
  rw [List.filterMap_cons, if_pos rfl]
  cases value <;> rfl

theorem map_singleton_injective {α : Type} {first second : Except Fault α}
    (equal : (first.map fun value => [value]) = second.map fun value => [value]) :
    first = second := by
  cases first with
  | error fault =>
      cases second with
      | error other => exact congrArg Except.error (Except.error.inj equal)
      | ok value => cases equal
  | ok value =>
      cases second with
      | error fault => cases equal
      | ok other => exact congrArg Except.ok (List.singleton_inj.mp (Except.ok.inj equal))

/-- The empty address and `unspecified` lead to the same options exactly if the channel
has at most one socket, its resolution fails, or only `unspecified` is found, for less
than all of its sockets. -/
theorem sameOptions_iff (config : TopologyConfig) (db : Db) (sp : SocketProperty) :
    SameOptions config db sp ↔ FindsUnspecified config db sp := by
  rw [← resolveChannel_map_eq_iff]
  have other (channels : MQChannel) : channelOption (config.withConnect channels) db =
      channelOption config db := by
    funext sp'
    rw [channelOption, resolveChannel_withConnect]
    rfl
  have each (channels : MQChannel) (address : Text) :
      (config.withChannel channels sp address).connectOptions db =
        ((sortUnique (channels.insert sp.name sp).keys).filterMap fun name =>
          if name = sp.name then config.channelOption db { sp with address := address }
          else (channels.lookup name).bind (config.channelOption db)).mapM id := by
    have inserted : (config.withChannel channels sp address).fConnectChannels =
        channels.insert sp.name { sp with address := address } := rfl
    have looked (name : Text) :
        ((channels.insert sp.name { sp with address := address }).lookup name).bind
            (config.channelOption db) =
          if name = sp.name then config.channelOption db { sp with address := address }
          else (channels.lookup name).bind (config.channelOption db) := by
      by_cases own : name = sp.name
      · rw [own, if_pos rfl, AList.lookup_insert, Option.bind_some]
      · rw [if_neg own, AList.lookup_insert_ne own]
    have keys : (channels.insert sp.name { sp with address := address }).keys =
        (channels.insert sp.name sp).keys := by
      rw [AList.keys_insert, AList.keys_insert]
    rw [connectOptions_eq, inserted, withChannel, other, keys]
    simp only [looked]
  have first := @channelOption_of_none config db sp [] (Or.inl rfl)
  have second := @channelOption_of_none config db sp unspecified (Or.inr rfl)
  constructor
  · intro same
    have options := same ∅
    rw [each, each, first, second] at options
    have alone : sortUnique ((∅ : MQChannel).insert sp.name sp).keys = [sp.name] := rfl
    rw [alone, mapM_singleton, mapM_singleton] at options
    exact map_singleton_injective options
  · intro same channels
    rw [each, each, first, second, same]

/-- A sampler with its channel of two sockets. -/
def pairSampler : TopologyConfig :=
  { fTopPrefix := topPrefix, fServiceName := "Sampler".toList, fId := "Sampler-0".toList }

def pairChannel (sockets : Int) : SocketProperty :=
  { name := "out".toList, type := "push".toList, method := "connect".toList
    numSockets := sockets }

/-- A registry with a sink that the sampler connects to. -/
def pairRegistry : Db :=
  let sink := instanceChannelKey "Sink".toList "Sink-0".toList "in".toList
  let me := instanceChannelKey "Sampler".toList "Sampler-0".toList "out".toList
  execAll ∅
    [.hset (healthKey "Sink".toList "Sink-0".toList) [("hostIp".toList, "10.0.0.1".toList)],
      .hset sink [(Field.text .numSockets, ['1'])],
      .hset (instanceSocketKey "Sink".toList "Sink-0".toList "in".toList 0)
        [(Field.text .address, "tcp://*:5555".toList)],
      .rpush (pairSampler.peerListKey me) [sink], .rpush (pairSampler.peerListKey sink) [me]]

/-- Behind `unspecified` the address of the sink is the second one. -/
theorem pairChannel_not_sameOptions : ¬ SameOptions pairSampler pairRegistry (pairChannel 2) := by
  intro same
  have options := same ∅
  revert options
  decide +kernel

end TopologyConfig

end NestDaq.Topology
