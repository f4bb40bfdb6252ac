import NestDaq.Message.Tree
import NestDaq.Text.Pattern
import NestDaq.Topology.Resolve

/-!
# Connecting by configuration

`ConfigConnect` takes the place of `ResolveConnectAddress` when the option
`connect-config` is given: the peers of a connect channel are named in the
option, in one of six forms, and their addresses are read from the registry.
The forms are written for the default separator, which is no special character
of a regular expression.
-/

namespace NestDaq.Topology

open NestDaq.Message
open NestDaq.Registry
open NestDaq.Store

/-- What a peer string of `connect-config` names; the index of a sub-channel may
be left out. -/
structure PeerName where
  service : Text
  id : Text
  channel : Text
  subChannelIndex : Option Text
  deriving DecidableEq

/-- `\w` -/
def isWord (char : Char) : Bool :=
  char.isAlphanum || char = '_'

open Text.Piece in
/-- `service:instance-index:channel` with an index, `channel[subChannelIndex]`. -/
def serviceInstanceIndexed : List Text.Piece :=
  [group isWord, literal ':', group isWord, literal '-', group Char.isDigit, literal ':',
    group isWord, literal '[', group Char.isDigit, literal ']']

open Text.Piece in
/-- `service:instance-index:channel` -/
def serviceInstance : List Text.Piece :=
  [group isWord, literal ':', group isWord, literal '-', group Char.isDigit, literal ':',
    group isWord]

open Text.Piece in
/-- `instance-index:channel[subChannelIndex]` -/
def instanceIndexed : List Text.Piece :=
  [group isWord, literal '-', group Char.isDigit, literal ':', group isWord, literal '[',
    group Char.isDigit, literal ']']

open Text.Piece in
/-- `service:channel[subChannelIndex]` -/
def serviceIndexed : List Text.Piece :=
  [group isWord, literal ':', group isWord, literal '[', group Char.isDigit, literal ']']

open Text.Piece in
/-- `instance-index:channel` -/
def instanceOnly : List Text.Piece :=
  [group isWord, literal '-', group Char.isDigit, literal ':', group isWord]

open Text.Piece in
/-- `service:channel` -/
def serviceOnly : List Text.Piece :=
  [group isWord, literal ':', group isWord]

/-- The id of an instance: its name and its index. -/
def instanceId (name index : Text) : Text :=
  name ++ ['-'] ++ index

/-- The part of `ConfigConnect` that reads a peer string. The service is taken
from the instance, or the instance from the service, when only one is given. -/
def parsePeer (p : Text) : Option PeerName :=
  let nSeparators := p.count ':'
  let hasSubChannelIndex := '[' ∈ p
  if nSeparators = 2 then
    if hasSubChannelIndex then
      match Text.groups serviceInstanceIndexed p with
      | some [service, name, index, channel, subChannelIndex] =>
          some ⟨service, instanceId name index, channel, some subChannelIndex⟩
      | _ => none
    else
      match Text.groups serviceInstance p with
      | some [service, name, index, channel] =>
          some ⟨service, instanceId name index, channel, none⟩
      | _ => none
  else if nSeparators = 1 then
    if hasSubChannelIndex then
      match Text.groups instanceIndexed p with
      | some [name, index, channel, subChannelIndex] =>
          some ⟨name, instanceId name index, channel, some subChannelIndex⟩
      | _ =>
          match Text.groups serviceIndexed p with
          | some [service, channel, subChannelIndex] =>
              some ⟨service, instanceId service ['0'], channel, some subChannelIndex⟩
          | _ => none
    else
      match Text.groups instanceOnly p with
      | some [name, index, channel] => some ⟨name, instanceId name index, channel, none⟩
      | _ =>
          match Text.groups serviceOnly p with
          | some [service, channel] => some ⟨service, instanceId service ['0'], channel, none⟩
          | _ => none
  else none

example : parsePeer "Sampler-1:data[3]".toList =
    some ⟨"Sampler".toList, "Sampler-1".toList, "data".toList, some ['3']⟩ := by
  decide

namespace TopologyConfig

variable (config : TopologyConfig)

/-- `findPeerIP`, empty when the host address is absent. -/
def findPeerIP (db : Db) (service id : Text) : Text :=
  (hget db (config.key [config.fTopPrefix, config.key [service, id], healthPrefix])
    "hostIp".toList).getD []

/-- The key that `findAddress` reads. -/
def findAddressKey (service id channel subChannelIndex : Text) : Text :=
  config.key [config.fTopPrefix,
    config.key [service, id, socketPrefix,
      chansPrefix ++ ['.'] ++ channel ++ ['.'] ++ subChannelIndex]]

/-- `findAddress`, empty when nothing is found. -/
def findAddress (views : Nat → View) (time : Nat) (service id channel subChannelIndex : Text) :
    Text × Nat :=
  let peerIP := config.findPeerIP (views time).registry service id
  if peerIP = [] then ([], time + 1)
  else
    match pollAddress views (config.findAddressKey service id channel subChannelIndex)
        config.attempts (time + 1) with
    | (some address, later) => (makeAddress address peerIP, later)
    | (none, later) => ([], later)

/-- The loop of `findAddresses` over the keys it found. -/
def readAddresses (views : Nat → View) (peerIP : Text) : List Text → Nat → List Text × Nat
  | [], time => ([], time)
  | key :: keys, time =>
      match pollAddress views key config.attempts time with
      | (some address, later) =>
          let (addresses, last) := readAddresses views peerIP keys later
          (makeAddress address peerIP :: addresses, last)
      | (none, later) => readAddresses views peerIP keys later

/-- The pattern that `findAddresses` scans. -/
def findAddressesPattern (service id channel : Text) : Text :=
  config.key [config.fTopPrefix, service, id, socketPrefix, channel]

/-- `findAddresses`. -/
def findAddresses (views : Nat → View) (time : Nat) (service id channel : Text) :
    List Text × Nat :=
  let peerIP := config.findPeerIP (views time).registry service id
  if peerIP = [] then ([], time + 1)
  else
    config.readAddresses views peerIP
      (scan (views (time + 1)).registry (config.findAddressesPattern service id channel))
      (time + 2)

/-- An address that was not found is not added to the list. -/
def found (address : Text × Nat) : List Text × Nat :=
  (if address.1 = [] then [] else [address.1], address.2)

/-- The addresses that one peer string adds to the list of a channel. -/
def peerStringAddresses (views : Nat → View) (time : Nat) (autoSubChannel : Bool) (p : Text) :
    List Text × Nat :=
  match parsePeer p with
  | none => ([], time)
  | some ⟨service, id, channel, some subChannelIndex⟩ =>
      found (config.findAddress views time service id channel subChannelIndex)
  | some ⟨service, id, channel, none⟩ =>
      if autoSubChannel then config.findAddresses views time service id channel
      else found (config.findAddress views time service id channel ['0'])

/-- The list of addresses of a channel. -/
def addressList (views : Nat → View) (autoSubChannel : Bool) :
    List Text → Nat → List Text × Nat
  | [], time => ([], time)
  | p :: rest, time =>
      let (addresses, later) := config.peerStringAddresses views time autoSubChannel p
      let (others, last) := addressList views autoSubChannel rest later
      (addresses ++ others, last)

/-- The field of the peers of a channel. -/
def peerField : Text := "peer".toList

/-- The peers of a channel: one string, or an array of strings. -/
def peerList (peer : PTree) : List Text :=
  if peer.data ≠ [] then [peer.data] else peer.values

/-- Add the addresses that are not empty to a channel. -/
def addAddresses (sp : SocketProperty) (addresses : List Text) : SocketProperty :=
  (addresses.filter (· ≠ [])).foldl appendAddress sp

/-- `ConfigConnect` for one channel of the option; `none` when it names no peers.
A channel that is not known yet is added. -/
def configChannel (views : Nat → View) (time : Nat) (child : Text × PTree) :
    Option (TopologyConfig × Text × Nat) :=
  let sp := (config.fConnectChannels.lookup child.1).getD {}
  (child.2.getChild peerField).map fun peer =>
    let (addresses, later) := config.addressList views sp.autoSubChannel (peerList peer) time
    let sp := addAddresses sp addresses
    ({ config with fConnectChannels := config.fConnectChannels.insert child.1 sp },
      toChannelConfig sp, later)

/-- The loop of `ConfigConnect` over the channels of the option, with the options
for the transport layer; `none` when a channel names no peers. -/
def configConnect (views : Nat → View) :
    TopologyConfig → List (Text × PTree) → Nat → TopologyConfig × Option (List Text)
  | config, [], _ => (config, some [])
  | config, child :: rest, time =>
      match config.configChannel views time child with
      | none => (config, none)
      | some (config, option, later) =>
          let (config, options) := configConnect views config rest later
          (config, options.map (option :: ·))

end TopologyConfig

end NestDaq.Topology
