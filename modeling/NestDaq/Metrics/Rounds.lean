import NestDaq.Metrics.Keys
import NestDaq.Text.Search
import NestDaq.Transition.Run
import Mathlib.Algebra.GroupWithZero.Nat
import Mathlib.Data.Finset.Card
import Mathlib.Data.List.AList

/-!
# Rounds of reports

The devices log a line for each sub-channel. The plugin reads these lines, adds them
up, and queues commands for the database, which it executes when all sub-channels have
reported. It counts the sub-channels that it has queued commands for and compares
their number with that of all sub-channels that it has a sum for; among these are the
ones without a type, for which it queues nothing.
-/

namespace NestDaq.Metrics

open NestDaq.Registry
open NestDaq.Transition

/-- What the plugin knows of `double`: zero and sums, `std::stod`, which throws for some
texts, the nearest natural number and `std::to_string`. -/
structure Doubles (D : Type) where
  zero : D
  add : D → D → D
  stod : Text → Option D
  nearbyint : D → Nat
  toString : D → Text

structure SocketMetrics (D : Type) where
  msgIn : D
  msgOut : D
  bytesIn : D
  bytesOut : D

/-- A command of the pipeline. -/
inductive Queued
  | hset (key field value : Text)
  | tsAdd (key value : Text)
  deriving DecidableEq

/-- What `SendProcessMetrics` has found out about the process. -/
structure ProcessReading (D : Type) where
  cpuUsage : D
  ramUsage : D
  stateId : Nat
  lastUpdate : Text
  lastUpdateNS : Text

/-- `[\d.eE\-+]`. -/
def numeric (char : Char) : Bool :=
  char.isDigit || char ∈ ".eE-+".toList

/-- The regular expression of `SendSocketMetrics`. -/
def socketMetricsPattern : List Text.Token :=
  [.group (fun char => char ∉ ['\n', '\r']) 0] ++ Text.literals "[".toList ++
    [.group Char.isDigit 1] ++ Text.literals "]: in: ".toList ++
    [.group numeric 1] ++ Text.literals " (".toList ++
    [.group numeric 1] ++ Text.literals " MB) out: ".toList ++
    [.group numeric 1] ++ Text.literals " (".toList ++
    [.group numeric 1] ++ Text.literals " MB)".toList

/-- What is found in a line. -/
structure Line where
  channelName : Text
  subChannelIndex : Text
  numMessageIn : Text
  bytesIn : Text
  numMessageOut : Text
  bytesOut : Text

/-- The groups of a line that has the parts looked for. -/
def readLine (content : Text) : Option Line :=
  if [" in: ", " out: ", "[", "]:"].any fun part => (Text.find content part.toList).isNone then none
  else
    match Text.search socketMetricsPattern content with
    | some [channel, index, numMessageIn, bytesIn, numMessageOut, bytesOut] =>
        some ⟨Text.trim channel, Text.trim index, numMessageIn, bytesIn, numMessageOut, bytesOut⟩
    | _ => none

namespace Line

variable (line : Line)

def name : Text :=
  subChannelName line.channelName line.subChannelIndex

/-- `chans.<name>.<n>.type`. -/
def socketTypeKey : Text :=
  Text.join ["chans".toList, line.channelName, line.subChannelIndex, "type".toList] ['.']

/-- The numbers of a line. -/
def numbers {D : Type} (doubles : Doubles D) : Option (SocketMetrics D) := do
  let msgIn ← doubles.stod line.numMessageIn
  let msgOut ← doubles.stod line.numMessageOut
  let bytesIn ← doubles.stod line.bytesIn
  let bytesOut ← doubles.stod line.bytesOut
  some ⟨msgIn, msgOut, bytesIn, bytesOut⟩

end Line

structure MetricsPlugin (D : Type) where
  fId : Text
  fTsProcKey : ProcessStatKey
  fSocketMetrics : AList fun _ : Text => SocketMetrics D
  fNumChannels : AList fun _ : Text => Nat
  fTsSockKey : AList fun _ : Text => SocketMetricsKey
  fTsSockSumKey : AList fun _ : Text => SocketMetricsKey
  fPipe : List Queued
  /-- The pipelines that have been executed. -/
  executed : List (List Queued)

/-- `operator[]` of a map of keys. -/
def keyAt (map : AList fun _ : Text => SocketMetricsKey) (name : Text) :
    AList (fun _ : Text => SocketMetricsKey) × SocketMetricsKey :=
  match map.lookup name with
  | some key => (map, key)
  | none => (map.insert name ⟨[], [], [], []⟩, ⟨[], [], [], []⟩)

/-- The keys of a direction: of the messages and of the bytes. -/
def SocketMetricsKey.of (key : SocketMetricsKey) : Direction → Text × Text
  | .input => (key.msgIn, key.bytesIn)
  | .output => (key.msgOut, key.bytesOut)

/-- The numbers of a direction. -/
def SocketMetrics.of {D : Type} (metrics : SocketMetrics D) : Direction → D × D
  | .input => (metrics.msgIn, metrics.bytesIn)
  | .output => (metrics.msgOut, metrics.bytesOut)

variable {D : Type} (doubles : Doubles D)

/-- The commands for a direction of a sub-channel. -/
def directionCommands (direction : Direction) (channelId : Text) (tsKey tsSumKey : SocketMetricsKey)
    (now sum : SocketMetrics D) : List Queued :=
  let messages := Text.decimal (doubles.nearbyint (now.of direction).1)
  let messagesSum := Text.decimal (doubles.nearbyint (sum.of direction).1)
  let bytes := doubles.toString (now.of direction).2
  let bytesSum := doubles.toString (sum.of direction).2
  let field := channelId ++ Direction.suffix (some direction)
  [.hset (fSockKey.of direction).1 channelId messages,
    .hset (fSockKey.of direction).2 channelId bytes,
    .hset (fSockSumKey.of direction).1 channelId messagesSum,
    .hset (fSockSumKey.of direction).2 channelId bytesSum,
    .hset fNumMessageKey field messages,
    .hset fBytesKey field bytes,
    .hset fNumMessageSumKey field messagesSum,
    .hset fBytesSumKey field bytesSum,
    .tsAdd (tsKey.of direction).1 messages,
    .tsAdd (tsKey.of direction).2 bytes,
    .tsAdd (tsSumKey.of direction).1 messagesSum,
    .tsAdd (tsSumKey.of direction).2 bytesSum]

def hasInput (socketType : Text) : Bool :=
  socketType ≠ "push".toList ∧ socketType ≠ "pub".toList

def hasOutput (socketType : Text) : Bool :=
  socketType ≠ "pull".toList ∧ socketType ≠ "sub".toList

namespace MetricsPlugin

variable (plugin : MetricsPlugin D)

/-- `SendProcessMetrics`. -/
def sendProcessMetrics (process : ProcessReading D) : MetricsPlugin D :=
  { plugin with
    fPipe := plugin.fPipe ++
      [.hset fProcKey.cpu plugin.fId (doubles.toString process.cpuUsage),
        .hset fProcKey.ram plugin.fId (doubles.toString process.ramUsage),
        .hset fLastUpdateKey plugin.fId process.lastUpdate,
        .hset fLastUpdateNSKey plugin.fId process.lastUpdateNS,
        .tsAdd plugin.fTsProcKey.cpu (doubles.toString process.cpuUsage),
        .tsAdd plugin.fTsProcKey.ram (doubles.toString process.ramUsage),
        .tsAdd plugin.fTsProcKey.stateId (Text.decimal process.stateId)] }

/-- `exec`. -/
def exec : MetricsPlugin D :=
  { plugin with fPipe := [], executed := plugin.executed ++ [plugin.fPipe] }

/-- The sum of a sub-channel. -/
def sumAt (name : Text) : SocketMetrics D :=
  (plugin.fSocketMetrics.lookup name).getD ⟨doubles.zero, doubles.zero, doubles.zero, doubles.zero⟩

/-- Add the numbers of a line to the sums. -/
def addMetrics (name : Text) (now : SocketMetrics D) : MetricsPlugin D :=
  let sum := plugin.sumAt doubles name
  { plugin with
    fSocketMetrics := plugin.fSocketMetrics.insert name
      ⟨doubles.add sum.msgIn now.msgIn, doubles.add sum.msgOut now.msgOut,
        doubles.add sum.bytesIn now.bytesIn, doubles.add sum.bytesOut now.bytesOut⟩ }

/-- Queue the commands for a line. -/
def queueLine (name socketType : Text) (now : SocketMetrics D) : MetricsPlugin D :=
  let channelId := Text.join [plugin.fId, name] colon
  let sum := plugin.sumAt doubles name
  let (fTsSockKey, tsKey) := keyAt plugin.fTsSockKey name
  let (fTsSockSumKey, tsSumKey) := keyAt plugin.fTsSockSumKey name
  let commands (direction : Direction) :=
    directionCommands doubles direction channelId tsKey tsSumKey now sum
  { plugin with
    fTsSockKey := fTsSockKey
    fTsSockSumKey := fTsSockSumKey
    fPipe := plugin.fPipe ++ (if hasInput socketType then commands .input else []) ++
      if hasOutput socketType then commands .output else [] }

/-- Count the sub-channel, and execute the pipeline when all are counted. -/
def countChannel (name : Text) (process : ProcessReading D) : MetricsPlugin D :=
  let fNumChannels :=
    if (plugin.fNumChannels.lookup name).getD 0 = 0 then plugin.fNumChannels.insert name 1
    else plugin.fNumChannels
  let countAll := (fNumChannels.entries.map Sigma.snd).sum
  if countAll = plugin.fSocketMetrics.entries.length then
    { (plugin.sendProcessMetrics doubles process).exec with fNumChannels := ∅ }
  else { plugin with fNumChannels := fNumChannels }

/-- What is done for a line with a type or without one. -/
def report (line : Line) (now : SocketMetrics D) (property : Text → Option Text)
    (process : ProcessReading D) : MetricsPlugin D :=
  match property line.socketTypeKey with
  | none => plugin
  | some socketType =>
      if hasInput socketType || hasOutput socketType then
        (plugin.queueLine doubles line.name socketType now).countChannel doubles line.name process
      else plugin

/-- `SendSocketMetrics`, `none` where a number cannot be read and `std::stod` throws. -/
def sendSocketMetrics (content : Text) (property : Text → Option Text)
    (process : ProcessReading D) : Option (MetricsPlugin D) :=
  match readLine content with
  | none => some plugin
  | some line => do
      let now ← line.numbers doubles
      some ((plugin.addMetrics doubles line.name now).report doubles line now property process)

/-- The transition to Ready. -/
def onReady : MetricsPlugin D :=
  { { plugin with
      fPipe := [.hset fStateKey plugin.fId "READY".toList,
        .hset fProcKey.stateId plugin.fId (Text.decimal 11)] }.exec with
    fSocketMetrics := ∅
    fNumChannels := ∅ }

end MetricsPlugin

end NestDaq.Metrics
