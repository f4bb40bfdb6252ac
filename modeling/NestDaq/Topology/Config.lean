import NestDaq.Registry.Keys
import NestDaq.Text.Order
import NestDaq.Topology.Data

/-!
# Topology configuration of one instance

The part of `TopologyConfig` that runs when a device initializes: it reads the
endpoints and links of its service, looks up the instances at the far end of
each link, and publishes its channels with their peers. Every function takes
the registry as it finds it.
-/

namespace NestDaq.Topology

open NestDaq.Store
open NestDaq.Registry

/-- `std::map` of the links by their two ends. -/
abbrev Links := AList fun _ : Text => LinkProperty

/-- The members of `TopologyConfig`. `connectConfig` holds the channels of the
connect-config option with their settings; the number of retries is the default
of its option. -/
structure TopologyConfig where
  fTopPrefix : Text
  fServiceName : Text
  fId : Text
  fSeparator : Text := colon
  fEnableUds : Bool := false
  ipAddress : Text := []
  connectConfig : List (Text × Hash) := []
  fMaxRetryToResolveAddress : Int := 10
  fBindChannels : MQChannel := ∅
  fConnectChannels : MQChannel := ∅
  fLinks : Links := ∅
  fRegisteredKeys : List Text := []

/-- The settings every device runs with: the fixed top prefix and the default
separator. -/
structure TopologyConfig.Standard (config : TopologyConfig) : Prop where
  top : config.fTopPrefix = topPrefix
  separator : config.fSeparator = colon

namespace TopologyConfig

variable (config : TopologyConfig) (db : Db)

/-- Join the parts of a key. -/
def key (parts : List Text) : Text :=
  Text.join parts config.fSeparator

/-- The key of an endpoint of the service. -/
def endpointKey (channel : Text) : Text :=
  config.key [config.fTopPrefix, topologyPrefix, endpointPrefix, config.fServiceName, channel]

/-- `ReadEndpoints`. -/
def readEndpoints : List Text :=
  scan db (config.endpointKey ['*'])

/-- `ReadEndpointProperty`. -/
def readEndpointProperty (endpoint : Text) : Option SocketProperty :=
  let before := config.endpointKey []
  (toSocketProperty (hgetall db endpoint)).map fun sp =>
    { sp with name := Text.substrFrom endpoint before.length }

/-- `emplace`: an existing channel is kept. -/
def emplace (channels : MQChannel) (sp : SocketProperty) : MQChannel :=
  if sp.name ∈ channels then channels else channels.insert sp.name sp

/-- Sort a channel by its method; other methods are reported and ignored. -/
def addChannel (sp : SocketProperty) : TopologyConfig :=
  if sp.method = "bind".toList then
    { config with fBindChannels := emplace config.fBindChannels sp }
  else if sp.method = "connect".toList then
    { config with fConnectChannels := emplace config.fConnectChannels sp }
  else config

/-- The settings a connect-config entry may give. -/
def connectSettings : List Text :=
  [Field.text .type, Field.text .transport, Field.text .sndBufSize, Field.text .rcvBufSize,
    Field.text .sndKernelSize, Field.text .rcvKernelSize, Field.text .linger,
    Field.text .rateLogging, Field.text .numSockets, Field.text .autoSubChannel]

/-- One channel of connect-config. -/
def connectChannel (name : Text) (settings : Hash) : Option SocketProperty :=
  let known := setFields ∅ (connectSettings.filterMap fun setting =>
    (settings.lookup setting).map fun value => (setting, value))
  (toSocketProperty known).map fun sp => { sp with name := name, method := "connect".toList }

/-- Read all channels: those of connect-config first, then the endpoints. -/
def readChannels : Option TopologyConfig := do
  let config ← config.connectConfig.foldlM (fun config child =>
    (connectChannel child.1 child.2).map config.addChannel) config
  (config.readEndpoints db).foldlM (fun config endpoint =>
    (config.readEndpointProperty db endpoint).map config.addChannel) config

/-- `ReadLinks`. -/
def readLinks : List Text :=
  let near := scan db (config.key
    [config.fTopPrefix, topologyPrefix, linkPrefix, config.fServiceName ++ "*,*".toList, ['*']])
  let far := scan db (config.key
    [config.fTopPrefix, topologyPrefix, linkPrefix, ['*'], "*,".toList ++ config.fServiceName,
      ['*']])
  near ∪ far

/-- The ends of a link within one service, in the order of the channel names. -/
def orderEnds (lp : LinkProperty) (serviceL channelL serviceR channelR : Text) : LinkProperty :=
  if serviceL = serviceR then
    if channelL < channelR then
      { lp with
        myService := serviceL, myChannel := channelL,
        peerService := serviceR, peerChannel := channelR }
    else
      { lp with
        myService := serviceL, myChannel := channelR,
        peerService := serviceR, peerChannel := channelL }
  else lp

/-- The ends of a link with the service's own end first. This assigns the ends
of every link, also of one that was put in order before. -/
def nearEnds (lp : LinkProperty) (serviceL channelL serviceR channelR : Text) : LinkProperty :=
  if serviceL = config.fServiceName then
    { lp with
      myService := serviceL, myChannel := channelL,
      peerService := serviceR, peerChannel := channelR }
  else
    { lp with
      myService := serviceR, myChannel := channelR,
      peerService := serviceL, peerChannel := channelL }

/-- The part of `ReadLinkProperty` that parses `service:channel,service:channel`. -/
def parseLink (socketPairName options : Text) : LinkProperty :=
  let comma := socketPairName.findIdx? (· ∈ [','])
  let firstSep := Text.findLastOfUpTo socketPairName config.fSeparator comma
  let secondSep := Text.findLastOf socketPairName config.fSeparator
  let serviceL := Text.substrTo socketPairName firstSep
  let channelL := Text.substrBetween socketPairName (Text.after firstSep) comma
  let serviceR := Text.substrBetween socketPairName (Text.after comma) secondSep
  let channelR := Text.substrFrom socketPairName (Text.after secondSep)
  let ordered := orderEnds {} serviceL channelL serviceR channelR
  { config.nearEnds ordered serviceL channelL serviceR channelR with options := options }

/-- `ReadLinkProperty`; `none` when the key holds no string. -/
def readLinkProperty (link : Text) : Option LinkProperty :=
  let before := config.key [config.fTopPrefix, topologyPrefix, linkPrefix, []]
  (get db link).map (config.parseLink (Text.substrFrom link before.length))

/-- The key of a link in `fLinks`. -/
def linkName (lp : LinkProperty) : Text :=
  lp.myService ++ config.fSeparator ++ lp.myChannel ++ [','] ++
    lp.peerService ++ config.fSeparator ++ lp.peerChannel

/-- Record a link; the options of a link already known are appended to it. -/
def addLink (lp : LinkProperty) : TopologyConfig :=
  let name := config.linkName lp
  match config.fLinks.lookup name with
  | some known =>
      { config with
        fLinks := config.fLinks.insert name
          { known with options := known.options ++ [','] ++ lp.options } }
  | none => { config with fLinks := config.fLinks.insert name lp }

/-- Read all links of the service. -/
def collectLinks : Option TopologyConfig :=
  (config.readLinks db).foldlM (fun config link =>
    (config.readLinkProperty db link).map config.addLink) config

/-- A link is passed over for a channel that is not the service's own end,
unless both ends belong to one service. -/
def skips (l : LinkProperty) (channel : Text) : Bool :=
  l.myService ≠ l.peerService && l.myChannel ≠ channel

/-- The service and channel at the far end of a link, seen from `channel`. -/
def farEnd (l : LinkProperty) (channel : Text) : Text × Text :=
  if l.myService = l.peerService && l.peerChannel = channel then (l.myService, l.myChannel)
  else (l.peerService, l.peerChannel)

/-- The presence keys of a service. -/
def presenceKeys (service : Text) : List Text :=
  scan db (config.key [config.fTopPrefix, service, ['*'], presencePrefix])

/-- The channel key of the instance a presence key belongs to. -/
def peerKey (channel presence : Text) : Text :=
  config.key [Text.substrTo presence (Text.findLastOf presence config.fSeparator),
    channelPrefix, channel]

/-- The peers one link contributes to a channel, one for each presence key. -/
def linkPeers (channel : Text) (l : LinkProperty) : List Text :=
  if skips l channel then []
  else (config.presenceKeys db (farEnd l channel).1).map (config.peerKey (farEnd l channel).2)

/-- The peers all links contribute, in the order of the links. -/
def contributedPeers (channel : Text) : List Text :=
  (ordered config.fLinks).flatMap fun link => config.linkPeers db channel link.2

/-- The instance key of a peer key. -/
def peerInstanceKey (peer : Text) : Text :=
  Text.substrTo peer (Text.find peer (config.fSeparator ++ channelPrefix))

/-- The health key of the instance of a peer key. -/
def peerHealthKey (peer : Text) : Text :=
  config.key [config.peerInstanceKey peer, healthPrefix]

/-- `ReadPeerIP`, empty when the host address is absent. -/
def readPeerIP (peer : Text) : Text :=
  (hget db (config.peerHealthKey peer) "hostIp".toList).getD []

/-- `IsUdsAvailable`: all peers run on this host. -/
def isUdsAvailable (peers : List Text) : Bool :=
  peers.all fun peer => config.ipAddress == config.readPeerIP db peer

/-- The path of one unix domain socket. -/
def udsPath (sp : SocketProperty) (index : Nat) : Text :=
  "ipc://@/tmp/nestdaq/".toList ++ ['/'] ++ config.fServiceName ++ ['/'] ++ config.fId ++
    ['/'] ++ sp.name ++ ['['] ++ Text.decimal index ++ [']']

/-- The unix domain sockets of a channel, one for each of its sockets. -/
def udsAddress (sp : SocketProperty) : Text :=
  config.udsPath sp 0 ++
    (List.range (sp.numSockets - 1).toNat).flatMap fun i => [','] ++ config.udsPath sp (i + 1)

/-- Count the peers of a channel into its sockets. -/
def countPeers (sp : SocketProperty) : SocketProperty :=
  if sp.autoSubChannel then
    { sp with numSockets := sp.numSockets + (config.contributedPeers db sp.name).length }
  else sp

/-- The sorted peers of a channel. -/
def peers (channel : Text) : List Text :=
  sortUnique (config.contributedPeers db channel)

/-- The final properties of a channel. -/
def configureChannel (sp : SocketProperty) : SocketProperty :=
  let counted := config.countPeers db sp
  if config.isUdsAvailable db (config.peers db sp.name) && config.fEnableUds &&
      counted.method = "bind".toList && counted.transport = "zeromq".toList then
    { counted with address := counted.address ++ config.udsAddress counted }
  else counted

/-- The registry key of one of the instance's channels. -/
def channelKey (channel : Text) : Text :=
  config.key [config.fTopPrefix, config.fServiceName, config.fId, channelPrefix, channel]

/-- The key of the peer list of a channel. -/
def peerListKey (channel : Text) : Text :=
  config.key [channel, peerPrefix]

/-- `WriteChannel`: the pipeline, empty for a channel without peers. -/
def writeChannel (sp : SocketProperty) (peers : List Text) : List Command :=
  if peers = [] then []
  else
    let key := config.channelKey sp.name
    let listKey := config.peerListKey key
    [.hset key (channelFields sp), .expire key, .rpush listKey peers, .expire listKey]

/-- What `Initialize` computed for one channel, with the registry it found. -/
structure Configured where
  registry : Db
  sp : SocketProperty
  peers : List Text

/-- Store the properties of a channel back into its map. -/
def storeChannel (sp : SocketProperty) : TopologyConfig :=
  if sp.method = "bind".toList then
    { config with fBindChannels := config.fBindChannels.insert sp.name sp }
  else { config with fConnectChannels := config.fConnectChannels.insert sp.name sp }

/-- The keys `WriteChannel` registers for later removal. -/
def channelKeys (sp : SocketProperty) (peers : List Text) : List Text :=
  if peers = [] then []
  else [config.channelKey sp.name, config.peerListKey (config.channelKey sp.name)]

/-- Keep what was published for a channel. -/
def registerChannel (sp : SocketProperty) (peers : List Text) : TopologyConfig :=
  { config.storeChannel sp with
    fRegisteredKeys := config.fRegisteredKeys ++ config.channelKeys sp peers }

/-- Configure and publish the channels one after the other. -/
def publishChannels : TopologyConfig → Db → List SocketProperty →
    TopologyConfig × Db × List Configured
  | config, db, [] => (config, db, [])
  | config, db, sp :: rest =>
      let configured := config.configureChannel db sp
      let peers := config.peers db sp.name
      let (config', db', later) :=
        publishChannels (config.registerChannel configured peers)
          (execAll db (config.writeChannel configured peers)) rest
      (config', db', ⟨db, configured, peers⟩ :: later)

/-- The channels in the order they are configured. -/
def channelList : List SocketProperty :=
  (ordered config.fBindChannels).map (·.2) ++ (ordered config.fConnectChannels).map (·.2)

/-- `Initialize`; `none` when reading the topology throws. -/
def initializeChannels : Option (TopologyConfig × Db × List Configured) := do
  let config ← config.readChannels db
  let config ← config.collectLinks db
  return publishChannels config db config.channelList

end TopologyConfig

end NestDaq.Topology
