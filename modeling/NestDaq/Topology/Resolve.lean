import NestDaq.Topology.Config

/-!
# Address exchange

The part of `TopologyConfig` that runs when a device is bound: it publishes the
addresses of its sub-sockets, waits until the channels of its peers are marked
as bound, and resolves the addresses of its connect channels from the registry.
The sub-sockets themselves are made by the transport layer, which is known here
through the properties of the device.
-/

namespace NestDaq.Topology

open NestDaq.Store
open NestDaq.Registry

/-- The properties of a device. -/
abbrev Properties := AList fun _ : Text => Text

/-- `GetPropertiesAsStringStartingWith`. -/
def propertiesStartingWith (properties : Properties) (q : Text) : List (Text × Text) :=
  (ordered properties).filter fun property => q.isPrefixOf property.1

/-- The first part of the property names of sub-sockets. -/
def chansPrefix : Text := "chans".toList

/-- The front of the property names of one sub-socket: `chans.<channel>.<index>`. -/
def localKey (channel : Text) (index : Nat) : Text :=
  Text.join [chansPrefix, channel, Text.decimal index] ['.']

theorem exists_length_lt (names : List Text) : ∃ size, ∀ name ∈ names, name.length < size := by
  induction names with
  | nil => exact ⟨0, by simp⟩
  | cons name names ih =>
      obtain ⟨size, bounds⟩ := ih
      refine ⟨max size (name.length + 1), fun other member => ?_⟩
      rcases List.mem_cons.mp member with rfl | inRest
      · omega
      · exact lt_of_lt_of_le (bounds other inRest) (le_max_left _ _)

/-- A device has finitely many properties, so some index has none. -/
theorem exists_index_without_properties (properties : Properties) (channel : Text) :
    ∃ index, propertiesStartingWith properties (localKey channel index) = [] := by
  obtain ⟨size, bounds⟩ := exists_length_lt properties.keys
  obtain ⟨index, long⟩ := Text.exists_lt_length_decimal size
  refine ⟨index, ?_⟩
  rw [propertiesStartingWith, List.filter_eq_nil_iff]
  rintro ⟨name, value⟩ member isPrefix
  have found := mem_ordered.mp member
  have short := bounds name
    (AList.mem_keys.mp (AList.lookup_isSome.mp (Option.isSome_iff_exists.mpr ⟨value, found⟩)))
  have digits : (Text.decimal index).length ≤ (localKey channel index).length := by
    simp only [localKey, Text.join_cons_cons, Text.join_singleton, List.length_append]
    omega
  have longer := (List.isPrefixOf_iff_prefix.mp isPrefix).length_le
  exact absurd (long.trans_le (digits.trans longer)) (Nat.lt_asymm short)

/-- The first index without properties, where the loop of `WriteAddress` ends. -/
def subSocketCount (properties : Properties) (channel : Text) : Nat :=
  Nat.find (exists_index_without_properties properties channel)

namespace TopologyConfig

variable (config : TopologyConfig) (db : Db)

/-- The fields of one sub-socket: its properties under the last part of their
names, and two settings of its channel. -/
def subSocketFields (sp : SocketProperty) (chans : List (Text × Text)) : Hash :=
  setFields ∅ (chans.map (fun property =>
      (Text.substrFrom property.1 (Text.after (Text.findLastOf property.1 ['.'])), property.2)) ++
    [(Field.text .numSockets, Text.toString sp.numSockets),
      (Field.text .autoSubChannel, flagText sp.autoSubChannel)])

/-- The registry key of one of the instance's sub-sockets. -/
def socketKey (channel : Text) (index : Nat) : Text :=
  config.key [config.fTopPrefix, config.fServiceName, config.fId, socketPrefix,
    localKey channel index]

/-- The commands for one sub-socket. -/
def writeSubSocket (properties : Properties) (sp : SocketProperty) (index : Nat) : List Command :=
  let key := config.socketKey sp.name index
  let chans := propertiesStartingWith properties (localKey sp.name index)
  [.hset key (ordered (subSocketFields sp chans)), .expire key]

/-- `WriteAddress`: the pipeline, where `f` adds the commands that follow the
sub-sockets of a channel. -/
def writeAddress (properties : Properties) (channels : MQChannel) (f : Text → List Command) :
    List Command :=
  (ordered channels).flatMap fun channel =>
    (List.range (subSocketCount properties channel.2.name)).flatMap
      (config.writeSubSocket properties channel.2) ++ f channel.1

/-- The keys `WriteAddress` registers for later removal. -/
def addressKeys (properties : Properties) (channels : MQChannel) : List Text :=
  (ordered channels).flatMap fun channel =>
    (List.range (subSocketCount properties channel.2.name)).map (config.socketKey channel.2.name)

/-- The command that marks a channel as bound. -/
def markBound (channel : Text) : List Command :=
  [.hset (config.channelKey channel) [(Field.text .bound, ['1'])]]

/-- `WriteBindAddress`. -/
def writeBindAddress (properties : Properties) : List Command :=
  config.writeAddress properties config.fBindChannels config.markBound

/-- `WriteConnectAddress`. -/
def writeConnectAddress (properties : Properties) : List Command :=
  config.writeAddress properties config.fConnectChannels fun _ => []

/-- `Unregister`. -/
def unregister : TopologyConfig × Db :=
  ({ config with fRegisteredKeys := [] }, del db config.fRegisteredKeys)

/-- `Reset`: the channels are forgotten and the registered keys deleted. The
links are kept. -/
def reset : TopologyConfig × Db :=
  unregister { config with fBindChannels := ∅, fConnectChannels := ∅ } db

/-- The channel keys `WaitBindAddress` waits for. -/
def waitedChannels : List Text :=
  (ordered config.fConnectChannels).flatMap fun channel =>
    (ordered config.fLinks).flatMap fun link =>
      let lp := link.2
      if config.fServiceName = lp.myService ∧ channel.2.name = lp.myChannel then
        (config.presenceKeys db lp.peerService).map (config.peerKey lp.peerChannel)
      else if config.fServiceName = lp.peerService ∧ channel.2.name = lp.peerChannel then
        (config.presenceKeys db lp.myService).map (config.peerKey lp.myChannel)
      else []

/-- The test of `WaitBindAddress` for one channel. -/
def isBound (channel : Text) : Bool :=
  ((hget db channel (Field.text .bound)).map parseFlag).getD false

/-- `WaitBindAddress` returns from this registry without waiting. -/
def waitBindAddress : Bool :=
  (config.waitedChannels db).all (isBound db)

/-- What a device sees at one moment. -/
structure View where
  registry : Db
  canceled : Bool

/-- What can go wrong in the resolution: a number does not parse, an absent
host address is dereferenced, an index is out of range, an assertion fails. -/
inductive Fault where
  | number
  | hostIp
  | index
  | assertion
  deriving DecidableEq

/-- Read the address of a sub-socket until it is there, for a number of
attempts, one view for each. The second component is the time after the last. -/
def pollAddress (views : Nat → View) (key : Text) : Nat → Nat → Option Text × Nat
  | 0, time => (none, time)
  | attempts + 1, time =>
      match hget (views time).registry key (Field.text .address) with
      | some address => (some address, time + 1)
      | none =>
          if (views time).canceled then (none, time + 1)
          else pollAddress views key attempts (time + 1)

/-- The attempts a device makes: the first, and then retries while their count
does not exceed the limit. -/
def attempts : Nat :=
  (config.fMaxRetryToResolveAddress + 1).toNat + 1

/-- The loop of `ReadPeerAddress` over the sub-socket keys. -/
def readSubSockets (views : Nat → View) (peerIP : Option Text) :
    List Text → Nat → Except Fault (List Text × Nat)
  | [], time => .ok ([], time)
  | key :: keys, time =>
      match pollAddress views key config.attempts time, peerIP with
      | (some _, _), none => .error .hostIp
      | (some address, time), some ip => do
          let (addresses, time) ← readSubSockets views peerIP keys time
          return (makeAddress address ip :: addresses, time)
      | (none, time), peerIP => do
          let (addresses, time) ← readSubSockets views peerIP keys time
          return ([] :: addresses, time)

/-- The pattern of the sub-socket keys of a peer channel. -/
def subSocketPattern (peer : Text) : Text :=
  let peerChannel := Text.substrFrom peer (Text.after (Text.findLastOf peer config.fSeparator))
  config.key [config.peerInstanceKey peer, socketPrefix,
    Text.join [chansPrefix, peerChannel, ['*']] ['.']]

/-- `ReadPeerAddress`, beginning at a time: the host address is read first, then
the keys of the sub-sockets, then their addresses in the order of the keys. -/
def readPeerAddress (views : Nat → View) (time : Nat) (peer : Text) :
    Except Fault (List Text × Nat) :=
  let peerIP := hget (views time).registry (config.peerHealthKey peer) "hostIp".toList
  let keys := sortUnique (scan (views (time + 1)).registry (config.subSocketPattern peer))
  config.readSubSockets views peerIP keys (time + 2)

/-- `ReadPeerAddress` from a registry that does not change meanwhile. -/
def peerAddress (peer : Text) : Except Fault (List Text) :=
  (config.readPeerAddress (fun _ => ⟨db, false⟩) 0 peer).map (·.1)

/-- An element of the address vector. -/
def element (address : List Text) (index : Nat) : Except Fault Text :=
  match address[index]? with
  | some text => .ok text
  | none => .error .index

/-- Append an address to the ones found so far. -/
def appendAddress (res : SocketProperty) (address : Text) : SocketProperty :=
  { res with address := if res.address = [] then address else res.address ++ [','] ++ address }

/-- The loop of `ResolveConnectAddress` over the peers of a channel `sp`.
`myChannelKey` is the instance's own key and `size` the number of peers. -/
def resolvePeers (sp : SocketProperty) (myChannelKey : Text) (size : Nat) :
    List Text → SocketProperty → Nat → Bool → Except Fault SocketProperty
  | [], res, _, _ => .ok res
  | p :: rest, res, peerIndex, is1to1 =>
      -- The index viewed from the peer; the number of neighbors when absent.
      let myIndex := (lrange db (config.peerListKey p)).idxOf myChannelKey
      if is1to1 ∧ myIndex ≠ peerIndex then
        resolvePeers sp myChannelKey size rest res (peerIndex + 1) is1to1
      else
        match toSocketProperty (hgetall db p) with
        | none => .error .number
        | some peerProperty => do
            let address ← config.peerAddress db p
            if sp.numSockets ≤ 1 ∧ peerProperty.numSockets ≤ 1 then
              -- 1:1 or fan-in/fan-out
              if myIndex = peerIndex ∨ size = 1 then
                return { res with address := ← element address 0 }
              else resolvePeers sp myChannelKey size rest res (peerIndex + 1) true
            else if sp.numSockets ≤ 1 then
              -- 1:m
              let found ← element address myIndex
              resolvePeers sp myChannelKey size rest { res with address := found }
                (peerIndex + 1) is1to1
            else if peerProperty.numSockets ≤ 1 then
              -- n:1
              if address.length = 1 then
                let found ← element address 0
                resolvePeers sp myChannelKey size rest (appendAddress res found)
                  (peerIndex + 1) is1to1
              else throw .assertion
            else
              -- n:m
              if myIndex < address.length then
                let found ← element address myIndex
                resolvePeers sp myChannelKey size rest (appendAddress res found)
                  (peerIndex + 1) is1to1
              else throw .assertion

/-- A channel with an address of its own is not resolved. -/
def hasAddress (sp : SocketProperty) : Bool :=
  sp.address ≠ [] && sp.address ≠ "unspecified".toList

/-- Resolve one connect channel. -/
def resolveChannel (sp : SocketProperty) : Except Fault SocketProperty :=
  let myChannelKey := config.channelKey sp.name
  let peers := lrange db (config.peerListKey myChannelKey)
  config.resolvePeers db sp myChannelKey peers.length peers sp 0 false

/-- `ResolveConnectAddress`: the connect channels without an address, with the
addresses found for them. -/
def resolveConnectAddress : Except Fault (List SocketProperty) :=
  (((ordered config.fConnectChannels).map (·.2)).filter fun sp => !hasAddress sp).mapM
    (config.resolveChannel db)

/-- The options that `ResolveConnectAddress` passes to the transport layer. -/
def connectOptions : Except Fault (List (Text × Text)) :=
  (config.resolveConnectAddress db).map fun resolved =>
    resolved.map fun res => (res.name, toChannelConfig res)

end TopologyConfig

end NestDaq.Topology
