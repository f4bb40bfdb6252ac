import NestDaq.Text.Core
import NestDaq.Text.Order
import NestDaq.Text.Pattern
import NestDaq.Text.Split
import NestDaq.Store.Glob
import NestDaq.Store.Db
import NestDaq.Registry.Keys
import NestDaq.Registry.ServerUri
import NestDaq.Registry.Identity
import NestDaq.Registry.Allocation
import NestDaq.Registry.Presence
import NestDaq.Controller.Expiry
import NestDaq.Controller.Indices
import NestDaq.Controller.Lifetimes
import NestDaq.Transition.Run
import NestDaq.Transition.Network
import NestDaq.Transition.Update
import NestDaq.Topology.Data
import NestDaq.Topology.Config
import NestDaq.Topology.Links
import NestDaq.Topology.Discovery
import NestDaq.Topology.Bound
import NestDaq.Topology.Wiring
import NestDaq.Topology.Pairing
import NestDaq.Plugin.State
import NestDaq.Message.Tree
import NestDaq.Plugin.Subscribe
import NestDaq.Controller.WebGui
import NestDaq.Controller.Process
import NestDaq.Topology.ConnectConfig
import NestDaq.Topology.PeerNames
import NestDaq.Topology.ConnectAddress
import NestDaq.Topology.Cycle
import NestDaq.Topology.ChannelProperties
import NestDaq.Topology.Restart
import NestDaq.Topology.PeerKey
import NestDaq.Topology.LinkEnds
import NestDaq.Topology.RegisteredKeys
import NestDaq.Topology.Rounds
import NestDaq.Topology.Freshness
import NestDaq.Topology.ChannelOption
import NestDaq.Topology.Record
import NestDaq.Topology.SubChannels
import NestDaq.Topology.UnixSockets
import NestDaq.Topology.Unspecified
import NestDaq.Topology.Connecting
import NestDaq.Topology.Assembly
import NestDaq.Topology.Place
import NestDaq.Topology.Progress
import NestDaq.Plugin.Shutdown
import NestDaq.Plugin.RunTimes
import NestDaq.Plugin.Commanded
import NestDaq.Plugin.KeepAlive
import NestDaq.Parameter.Data
import NestDaq.Parameter.Reading
import NestDaq.Parameter.Precedence
import NestDaq.Parameter.Change
import NestDaq.Parameter.Words
import NestDaq.Parameter.Maps
import NestDaq.Controller.Sessions
import NestDaq.Controller.Targets
import NestDaq.Controller.Ready
import NestDaq.Controller.RunNumber
import NestDaq.Controller.HttpRequest
import NestDaq.Controller.HttpSession
import NestDaq.Controller.TargetLists
import NestDaq.Controller.Polling
import NestDaq.Controller.StateCounts
import NestDaq.Metrics.Expired
import NestDaq.Metrics.Flush
import NestDaq.Metrics.SocketProperties
import NestDaq.Metrics.TimeSeries
import NestDaq.Topology.Gathering
