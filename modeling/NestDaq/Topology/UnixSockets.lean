import NestDaq.Text.Split
import NestDaq.Topology.Publication

/-!
# Addresses of unix domain sockets

Where all peers of a bind channel run on the instance's own host, `Initialize` appends
the paths of unix domain sockets to the address of the channel. The first one is appended
without a comma. It stands alone if the address was empty or ended with a comma; else it
is glued to the last address that was given.
-/

namespace NestDaq.Topology

open NestDaq.Registry
open NestDaq.Store

namespace TopologyConfig

variable {config : TopologyConfig} {db : Db} {sp : SocketProperty}

/-- The conditions under which `Initialize` adds the paths. -/
structure UsesPaths (config : TopologyConfig) (db : Db) (sp : SocketProperty) : Prop where
  enabled : config.fEnableUds = true
  bind : sp.method = "bind".toList
  transport : sp.transport = "zeromq".toList
  sameHost : config.isUdsAvailable db (config.peers db sp.name) = true

/-- The number of sockets of a channel, at least one. -/
def socketCount (sp : SocketProperty) : Nat :=
  max 1 sp.numSockets.toNat

/-- The paths of a channel, one for each of its sockets. -/
def ownPaths (config : TopologyConfig) (sp : SocketProperty) : List Text :=
  (List.range (socketCount sp)).map (config.udsPath sp)

/-- The addresses that a channel has been given. -/
def configuredAddresses (address : Text) : List Text :=
  if address = [] then [] else Text.split address [',']

/-- The addresses of a channel are configured ones and its own paths, and each of its
paths is there once. -/
structure Addressed (config : TopologyConfig) (configured : List Text) (sp : SocketProperty) :
    Prop where
  entries : ∀ entry ∈ Text.split sp.address [','],
    entry ∈ configured ∨ entry ∈ config.ownPaths sp
  once : ∀ path ∈ config.ownPaths sp, (Text.split sp.address [',']).count path = 1

/-- The text of a path in front of its index. -/
def pathPrefix (config : TopologyConfig) (sp : SocketProperty) : Text :=
  "ipc://@/tmp/nestdaq/".toList ++ ['/'] ++ config.fServiceName ++ ['/'] ++ config.fId ++
    ['/'] ++ sp.name

theorem udsPath_eq (config : TopologyConfig) (sp : SocketProperty) (index : Nat) :
    config.udsPath sp index = config.pathPrefix sp ++ '[' :: (Text.decimal index ++ [']']) := by
  unfold udsPath pathPrefix
  generalize "ipc://@/tmp/nestdaq/".toList = scheme
  simp only [List.append_assoc, List.cons_append, List.nil_append]

theorem bracket_notMem_decimal (index : Nat) : '[' ∉ Text.decimal index ++ [']'] := by
  rw [List.mem_append, not_or]
  constructor
  · intro member
    exact absurd (Text.isDigit_of_mem_decimal member) (by decide)
  · decide

/-- A path begins with another text only where that text is empty. -/
theorem append_udsPath_eq_iff {front : Text} {first second : Nat} :
    front ++ config.udsPath sp first = config.udsPath sp second ↔ front = [] ∧ first = second := by
  constructor
  · intro equal
    rw [udsPath_eq, udsPath_eq, ← List.append_assoc] at equal
    rcases Text.append_separator_inj_last (bracket_notMem_decimal first)
      (bracket_notMem_decimal second) equal with ⟨fronts, indices⟩
    rw [List.append_left_eq_self] at fronts
    rw [List.append_cancel_right_eq] at indices
    exact ⟨fronts, Text.decimal_injective indices⟩
  · rintro ⟨rfl, rfl⟩
    rw [List.nil_append]

theorem udsPath_injective (config : TopologyConfig) (sp : SocketProperty) :
    Function.Injective (config.udsPath sp) := by
  intro first second equal
  have same := @append_udsPath_eq_iff config sp [] first second
  exact (same.mp equal).2

theorem comma_mem_udsPath_iff (index : Nat) : ',' ∈ config.udsPath sp index ↔
    ',' ∈ config.fServiceName ∨ ',' ∈ config.fId ∨ ',' ∈ sp.name := by
  have inDecimal : ',' ∉ Text.decimal index :=
    fun member => absurd (Text.isDigit_of_mem_decimal member) (by decide)
  have inScheme : ',' ∉ "ipc://@/tmp/nestdaq/".toList := by decide
  unfold udsPath
  generalize "ipc://@/tmp/nestdaq/".toList = scheme at inScheme
  simp [inScheme, inDecimal]

/-- The paths are joined by commas. -/
theorem udsAddress_eq (config : TopologyConfig) (sp : SocketProperty) :
    config.udsAddress sp = Text.join (config.ownPaths sp) [','] := by
  have positive : socketCount sp = (sp.numSockets - 1).toNat + 1 := by
    rw [socketCount]
    omega
  rw [ownPaths, positive, List.range_succ_eq_map, List.map_cons, Text.join_cons, List.map_map,
    List.flatMap_map]
  rfl

/-- The last address that was given, empty where nothing stands behind the last comma. -/
def lastAddress (address : Text) : Text :=
  (Text.split address [',']).getLastD []

/-- The addresses in front of the last one. -/
def frontAddresses (address : Text) : List Text :=
  (Text.split address [',']).dropLast

theorem split_eq_concat (address : Text) :
    Text.split address [','] = frontAddresses address ++ [lastAddress address] := by
  rcases Text.exists_split_eq_concat address [','] with ⟨front, last, parted⟩
  rw [frontAddresses, lastAddress, parted, List.dropLast_concat, List.getLastD_concat]

theorem lastAddress_eq_nil_iff {address : Text} :
    lastAddress address = [] ↔ address = [] ∨ address.getLast? = some ',' := by
  have ends := @Text.getLast?_split_eq_nil_iff address [',']
  rw [split_eq_concat, List.getLast?_concat, Option.some.injEq] at ends
  simpa using ends

/-- The names in the paths have no comma. -/
structure CommaFree (config : TopologyConfig) (sp : SocketProperty) : Prop where
  service : ',' ∉ config.fServiceName
  instanceId : ',' ∉ config.fId
  channel : ',' ∉ sp.name

theorem CommaFree.udsPath (free : CommaFree config sp) (index : Nat) :
    ',' ∉ config.udsPath sp index := by
  rw [comma_mem_udsPath_iff]
  rintro (inService | inId | inChannel)
  · exact free.service inService
  · exact free.instanceId inId
  · exact free.channel inChannel

/-- The paths behind the first one. -/
def laterPaths (config : TopologyConfig) (sp : SocketProperty) : List Text :=
  (List.range (socketCount sp - 1)).map fun index => config.udsPath sp (index + 1)

theorem ownPaths_eq (config : TopologyConfig) (sp : SocketProperty) :
    config.ownPaths sp = config.udsPath sp 0 :: config.laterPaths sp := by
  have positive : socketCount sp = socketCount sp - 1 + 1 := by
    rw [socketCount]
    omega
  rw [ownPaths, positive, List.range_succ_eq_map, List.map_cons, List.map_map]
  rfl

theorem nodup_ownPaths (config : TopologyConfig) (sp : SocketProperty) :
    (config.ownPaths sp).Nodup :=
  List.nodup_range.map (config.udsPath_injective sp)

/-- The first path is glued to the last address, the others stand alone. -/
theorem split_append_udsAddress (free : CommaFree config sp) (address : Text) :
    Text.split (address ++ config.udsAddress sp) [','] =
      frontAddresses address ++
        (lastAddress address ++ config.udsPath sp 0) :: config.laterPaths sp := by
  have pathsFree : ∀ path ∈ config.ownPaths sp, ',' ∉ path := by
    intro path member
    rcases List.mem_map.mp member with ⟨index, _, rfl⟩
    exact free.udsPath index
  have paths : Text.split (config.udsAddress sp) [','] = config.ownPaths sp := by
    rw [udsAddress_eq]
    apply Text.split_join _ pathsFree
    rw [ownPaths_eq]
    exact List.cons_ne_nil _ _
  rw [ownPaths_eq] at paths
  exact Text.split_append (split_eq_concat address) paths

/-- The address that was given leaves room for the paths: it has none of them, is empty
or ends with a comma. The other possibility is a list that already has the first path,
and its last address with the first path behind it. -/
structure LeavesRoom (config : TopologyConfig) (address : Text) (sp : SocketProperty) : Prop where
  free : CommaFree config sp
  later : ∀ path ∈ config.laterPaths sp, path ∉ frontAddresses address
  first : (address = [] ∨ address.getLast? = some ',') ∧
      config.udsPath sp 0 ∉ frontAddresses address ∨
    lastAddress address ≠ [] ∧
      lastAddress address ++ config.udsPath sp 0 ∈ Text.split address [','] ∧
      (frontAddresses address).count (config.udsPath sp 0) = 1

theorem mem_configuredAddresses {address entry : Text} (nonempty : address ≠ []) :
    entry ∈ configuredAddresses address ↔ entry ∈ Text.split address [','] := by
  rw [configuredAddresses, if_neg nonempty]

theorem mem_configuredAddresses_of_front {address entry : Text}
    (member : entry ∈ frontAddresses address) : entry ∈ configuredAddresses address := by
  by_cases empty : address = []
  · rw [empty, frontAddresses, Text.split_nil] at member
    cases member
  · rw [mem_configuredAddresses empty, split_eq_concat]
    exact List.mem_append_left _ member

theorem ne_nil_of_lastAddress {address : Text} (given : lastAddress address ≠ []) :
    address ≠ [] := by
  rintro rfl
  exact given (lastAddress_eq_nil_iff.mpr (Or.inl rfl))

theorem glued_eq_iff {address path : Text} (own : path ∈ config.ownPaths sp) :
    lastAddress address ++ config.udsPath sp 0 = path ↔
      lastAddress address = [] ∧ path = config.udsPath sp 0 := by
  rcases List.mem_map.mp own with ⟨index, _, rfl⟩
  rw [append_udsPath_eq_iff, (config.udsPath_injective sp).eq_iff, eq_comm (a := 0)]

/-- How often a path is in the list of addresses. -/
theorem count_split (free : CommaFree config sp) (address : Text) {path : Text}
    (own : path ∈ config.ownPaths sp) :
    (Text.split (address ++ config.udsAddress sp) [',']).count path =
      (frontAddresses address).count path + ((config.laterPaths sp).count path +
        if lastAddress address = [] ∧ path = config.udsPath sp 0 then 1 else 0) := by
  rw [split_append_udsAddress free, List.count_append, List.count_cons]
  simp only [beq_iff_eq, glued_eq_iff own]

/-- With the paths added, the addresses are as they should be exactly if there was room. -/
theorem addressed_append_iff (config : TopologyConfig) (sp : SocketProperty) (address : Text) :
    Addressed config (configuredAddresses address)
        { sp with address := address ++ config.udsAddress sp } ↔
      LeavesRoom config address sp := by
  have own := config.ownPaths_eq sp
  have distinct := config.nodup_ownPaths sp
  rw [own, List.nodup_cons] at distinct
  have firstOwn : config.udsPath sp 0 ∈ config.ownPaths sp := own ▸ List.mem_cons_self
  have laterOwn {path : Text} (later : path ∈ config.laterPaths sp) : path ∈ config.ownPaths sp :=
    own ▸ List.mem_cons_of_mem _ later
  have laterCount := List.count_eq_zero_of_not_mem distinct.1
  constructor
  · rintro ⟨entries, once⟩
    have noComma : ',' ∉ config.udsPath sp 0 := by
      intro comma
      have present := List.count_pos_iff.mp (Nat.lt_of_lt_of_eq Nat.one_pos (once _ firstOwn).symm)
      exact Text.notMem_of_mem_split present comma List.mem_cons_self
    rw [comma_mem_udsPath_iff, not_or, not_or] at noComma
    have free : CommaFree config sp := ⟨noComma.1, noComma.2.1, noComma.2.2⟩
    have counts {path : Text} (member : path ∈ config.ownPaths sp) :=
      (count_split free address member).symm.trans (once path member)
    constructor
    · exact free
    · intro path later inFront
      have total := counts (laterOwn later)
      have front := List.count_pos_iff.mpr inFront
      have behind := List.count_pos_iff.mpr later
      omega
    · have total := counts firstOwn
      rw [laterCount] at total
      by_cases last : lastAddress address = []
      · apply Or.inl
        rw [if_pos ⟨last, rfl⟩] at total
        exact ⟨lastAddress_eq_nil_iff.mp last, List.count_eq_zero.mp (by omega)⟩
      · apply Or.inr
        rw [if_neg fun both => last both.1] at total
        have glued := entries (lastAddress address ++ config.udsPath sp 0) (by
          rw [split_append_udsAddress free]
          exact List.mem_append_right _ List.mem_cons_self)
        rcases glued with configured | isOwn
        · rw [mem_configuredAddresses (ne_nil_of_lastAddress last)] at configured
          exact ⟨last, configured, by omega⟩
        · exact absurd ((glued_eq_iff isOwn).mp rfl).1 last
  · intro room
    constructor
    · intro entry member
      simp only at member
      rw [split_append_udsAddress room.free] at member
      rcases List.mem_append.mp member with inFront | member
      · exact Or.inl (mem_configuredAddresses_of_front inFront)
      · rcases List.mem_cons.mp member with rfl | later
        · rcases room.first with ⟨ended, _⟩ | ⟨last, listed, _⟩
          · rw [lastAddress_eq_nil_iff.mpr ended]
            exact Or.inr firstOwn
          · exact Or.inl ((mem_configuredAddresses (ne_nil_of_lastAddress last)).mpr listed)
        · exact Or.inr (laterOwn later)
    · intro path member
      have isOwn : path ∈ config.ownPaths sp := member
      simp only
      rw [count_split room.free address isOwn]
      rw [own] at isOwn
      rcases List.mem_cons.mp isOwn with rfl | later
      · rw [laterCount]
        rcases room.first with ⟨ended, absent⟩ | ⟨last, _, single⟩
        · rw [if_pos ⟨lastAddress_eq_nil_iff.mpr ended, rfl⟩, List.count_eq_zero_of_not_mem absent]
        · rw [if_neg fun both => last both.1, single]
      · have other : path ≠ config.udsPath sp 0 := by
          rintro rfl
          exact distinct.1 later
        rw [if_neg fun both => other both.2, List.count_eq_one_of_mem distinct.2 later,
          List.count_eq_zero_of_not_mem (room.later path later)]

theorem configureChannel_of_usesPaths (uses : UsesPaths config db sp) :
    config.configureChannel db sp =
      { config.countPeers db sp with
        address := sp.address ++ config.udsAddress (config.countPeers db sp) } := by
  have counted : (config.countPeers db sp).method = sp.method ∧
      (config.countPeers db sp).transport = sp.transport ∧
      (config.countPeers db sp).address = sp.address := by
    unfold countPeers
    split <;> exact ⟨rfl, rfl, rfl⟩
  rw [configureChannel, if_pos, counted.2.2]
  simp [uses.sameHost, uses.enabled, counted.1, counted.2.1, uses.bind, uses.transport]

/-- Where `Initialize` adds the paths, the addresses of the channel are the configured
ones and each of its paths once, exactly if the given address leaves room for them. -/
theorem configureChannel_addressed_iff (uses : UsesPaths config db sp) :
    Addressed config (configuredAddresses sp.address) (config.configureChannel db sp) ↔
      LeavesRoom config sp.address (config.countPeers db sp) := by
  rw [configureChannel_of_usesPaths uses]
  exact addressed_append_iff config _ sp.address

/-- A sink that may use unix domain sockets, with a link to the samplers. -/
def localSink : TopologyConfig :=
  { fTopPrefix := topPrefix, fServiceName := "Sink".toList, fId := "Sink-0".toList
    fEnableUds := true, ipAddress := "10.0.0.1".toList
    fLinks := AList.singleton "Sampler:out,Sink:in".toList
      { myService := "Sink".toList, myChannel := "in".toList
        peerService := "Sampler".toList, peerChannel := "out".toList } }

/-- Its channel with an address. -/
def localChannel (address : Text) : SocketProperty :=
  { name := "in".toList, type := "pull".toList, method := "bind".toList, address := address
    numSockets := 2 }

/-- A sampler runs on the host of the sink. -/
def localRegistry : Db :=
  hset (set ∅ (presenceKey "Sampler".toList "Sampler-0".toList) [])
    (healthKey "Sampler".toList "Sampler-0".toList) [("hostIp".toList, "10.0.0.1".toList)]

theorem usesPaths_localChannel (address : Text) :
    UsesPaths localSink localRegistry (localChannel address) := by
  have sameHost :
      localSink.isUdsAvailable localRegistry (localSink.peers localRegistry "in".toList) =
        true := by
    decide +kernel
  exact ⟨rfl, rfl, rfl, sameHost⟩

/-- The path is glued to the port. -/
theorem localChannel_not_addressed :
    UsesPaths localSink localRegistry (localChannel "tcp://*:5555".toList) ∧
      ¬ Addressed localSink (configuredAddresses "tcp://*:5555".toList)
        (localSink.configureChannel localRegistry (localChannel "tcp://*:5555".toList)) := by
  apply And.intro (usesPaths_localChannel _)
  rintro ⟨entries, _⟩
  revert entries
  decide +kernel

/-- With a comma behind the port the paths stand alone. -/
theorem localChannel_addressed :
    localSink.peers localRegistry "in".toList =
        [instanceChannelKey "Sampler".toList "Sampler-0".toList "out".toList] ∧
      Addressed localSink (configuredAddresses "tcp://*:5555,".toList)
        (localSink.configureChannel localRegistry (localChannel "tcp://*:5555,".toList)) := by
  apply And.intro (by decide +kernel)
  apply (configureChannel_addressed_iff (usesPaths_localChannel _)).mpr
  constructor
  · constructor <;> decide
  · decide +kernel
  · exact Or.inl ⟨Or.inr rfl, by decide +kernel⟩

end TopologyConfig

end NestDaq.Topology
