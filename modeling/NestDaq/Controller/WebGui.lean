import Mathlib.Algebra.Group.Int.Defs
import NestDaq.Message.Tree
import NestDaq.Plugin.Control
import NestDaq.Registry.Keys

/-!
# The web controller

`WebGui` takes text messages of web clients, finds the function for their
command, and reads and writes the registry. A message is handled with the
registry as it is when the message arrives; the wait loops of a published
command read it again at every poll.
-/

namespace NestDaq.Controller

open NestDaq.Message
open NestDaq.Plugin
open NestDaq.Registry
open NestDaq.Store

namespace RunInfo

def runInfoPrefix : Text := "run_info".toList
def latestRunNumber : Text := "latest_run_number".toList
def runNumber : Text := "run_number".toList
def waitDeviceReady : Text := "wait-device-ready".toList
def waitReady : Text := "wait-ready".toList

/-- `knownRunInfoList`. -/
def knownRunInfoList : List Text :=
  [runNumber, waitDeviceReady, waitReady]

end RunInfo

open RunInfo

/-- `knownCommandList`. -/
def knownCommandList : List Text :=
  [FairmqCommand.bind, FairmqCommand.completeInit, FairmqCommand.connect, FairmqCommand.end,
    FairmqCommand.initDevice, FairmqCommand.initTask, FairmqCommand.resetDevice,
    FairmqCommand.resetTask, FairmqCommand.run, FairmqCommand.stop, DaqCommand.exit,
    DaqCommand.quit, DaqCommand.reset, DaqCommand.start]

/-- `waitDeviceReadyTargets`. -/
def waitDeviceReadyTargets : List Text :=
  [DeviceState.deviceReady.name, DeviceState.ready.name, DeviceState.running.name]

/-- `waitReadyTargets`. -/
def waitReadyTargets : List Text :=
  [DeviceState.ready.name, DeviceState.running.name]

def redisPublish : Text := "redis-publish".toList
def redisGet : Text := "redis-get".toList
def redisSet : Text := "redis-set".toList
def redisIncr : Text := "redis-incr".toList

/-- The functions of the table. -/
inductive Handler
  | publish
  | get
  | set
  | incr
  deriving DecidableEq

/-- `fFuncList`; an entry without a handler is an empty `std::function`. -/
abbrev FuncList := AList fun _ : Text => Option Handler

/-- `InitializeFunctionList`. -/
def initializeFunctionList : FuncList :=
  ((((∅ : FuncList).insert redisIncr (some .incr)).insert redisSet (some .set)).insert redisGet
    (some .get)).insert redisPublish (some .publish)

/-- The members of the controller that the functions read, with the JSON reader
and writer. -/
structure WebGui where
  fSeparator : Text
  fChannelName : Text
  readJson : JsonReader
  writeJson : PTree → Text

/-- A text message, the registry when it arrives and at the polls of its wait
loops, and whether the client can be written to. -/
structure Request where
  text : Text
  db : Db
  polls : Nat → Db
  connected : Bool

/-- Why a function does not return. -/
inductive Fault
  | jsonParserError
  | badFunctionCall
  | replyError
  | badPath
  | webSocket
  /-- Not a fault of the code: a wait loop has not ended yet. -/
  | waiting
  deriving DecidableEq

/-- What a function does to the registry and to the clients. -/
inductive Effect
  | set (key text : Text)
  | incr (key : Text)
  | publish (channel text : Text)
  | send (text : Text)
  deriving DecidableEq

namespace WebGui

variable (gui : WebGui) (request : Request)

/-- A key of the run information. -/
def runInfoKey (name : Text) : Text :=
  runInfoPrefix ++ gui.fSeparator ++ name

/-- `Send` to the client of the request. -/
def send (text : Text) : Except Fault (List Effect) :=
  if request.connected then .ok [.send text] else .error .webSocket

/-- `GET`, which refuses a key that holds no string. -/
def get (name : Text) : Except Fault (Option Text) :=
  match request.db.lookup (gui.runInfoKey name) with
  | none => .ok none
  | some (.string text) => .ok (some text)
  | some _ => .error .replyError

/-- A reply with a type and a value. -/
def reply (type value : Text) : PTree :=
  .node [] [("type".toList, .leaf type), (valueField, .leaf value)]

/-- A reply that reports an error. -/
def errorReply (value : Text) : Text :=
  ("\x7b \"type\": \"error\", \"value\": \"" : String).toList ++ value ++ "\" \x7d".toList

/-- `CopyLatestRunNumber`. -/
def copyLatestRunNumber : Except Fault (List Effect) := do
  match ← gui.get request runNumber with
  | none => send request (errorReply "could not get run number from redis.".toList)
  | some number =>
      let sent ← send request (gui.writeJson (reply "set latest_run_number".toList number))
      return .set (gui.runInfoKey latestRunNumber) number :: sent

/-- `ReadRunNumber`. -/
def readRunNumber : Except Fault (List Effect) := do
  match ← gui.get request runNumber with
  | none => send request (errorReply "could not get run number from redis.".toList)
  | some number => send request (gui.writeJson (reply "set run_number".toList number))

/-- `ReadLatestRunNumber`. -/
def readLatestRunNumber : Except Fault (List Effect) := do
  match ← gui.get request latestRunNumber with
  | none => send request (errorReply "could not get latest run number from redis.".toList)
  | some number => send request (gui.writeJson (reply "set latest_run_number".toList number))

/-- The integers of `INCR` have 64 bits. -/
def integerLimit : Int := 2 ^ 63

/-- The integers that `INCR` reads, in the form in which they are printed. -/
def readInteger (text : Text) : Option Int :=
  (Text.stoi text).filter fun n =>
    Text.toString n = text ∧ -integerLimit ≤ n ∧ n < integerLimit

/-- The value after `INCR`. An absent key counts as zero; a value that is no
integer, or the largest one, is refused. -/
def incremented (name : Text) : Except Fault Int := do
  match ← gui.get request name with
  | none => .ok 1
  | some text =>
      match readInteger text with
      | none => .error .replyError
      | some n => if n + 1 < integerLimit then .ok (n + 1) else .error .replyError

/-- `IncrementRunNumber`. -/
def incrementRunNumber : Except Fault (List Effect) := do
  let newValue ← gui.incremented request runNumber
  let sent ← send request (gui.writeJson (reply "set run_number".toList (Text.toString newValue)))
  return .incr (gui.runInfoKey runNumber) :: sent

/-- `RedisGet`. -/
def handleGet (arg : PTree) : Except Fault (List Effect) :=
  match arg.getOptional valueField with
  | none => .ok []
  | some value =>
      if value = runNumber then do
        let number ← gui.readRunNumber request
        let latest ← gui.readLatestRunNumber request
        return number ++ latest
      else .ok []

/-- `RedisIncr`. -/
def handleIncr (arg : PTree) : Except Fault (List Effect) :=
  match arg.getOptional valueField with
  | none => .ok []
  | some value => if value = runNumber then gui.incrementRunNumber request else .ok []

/-- `RedisSet`. -/
def handleSet (arg : PTree) : Except Fault (List Effect) :=
  match arg.getOptional nameField with
  | none => .ok []
  | some name =>
      if name ∈ knownRunInfoList then
        match arg.getOptional valueField with
        | none => .ok []
        | some value => .ok [.set (gui.runInfoKey name) value]
      else .ok []

/-- The keys with the states of a service and instance pattern. -/
def stateKeys (db : Db) (key : Text) : List Text :=
  scan db (Text.join [topPrefix, key, fairMQStatePrefix] gui.fSeparator)

/-- The test of `Wait`: no state key is left, or all states are the same target. -/
def waitDone (db : Db) (keys targets : List Text) : Bool :=
  let found := keys.flatMap (gui.stateKeys db)
  found = [] || targets.any fun target => (found.filterMap (Store.get db)).all (· = target)

/-- The loop of `Wait`, for as many polls as it is given; the result is the
number of the poll after the last one. -/
def waitLoop (polls : Nat → Db) (keys targets : List Text) : Nat → Nat → Option Nat
  | 0, _ => none
  | fuel + 1, time =>
      if gui.waitDone (polls time) keys targets then some (time + 1)
      else waitLoop polls keys targets fuel (time + 1)

/-- The key patterns for which `Wait` loops, one loop after the other. -/
def waitKeys (services instances : List Text) : List (List Text) :=
  if everyone ∈ services then [[Text.join [['*'], ['*']] gui.fSeparator]]
  else if everyone ∈ instances then
    services.dedup.map fun service => [Text.join [service, ['*']] gui.fSeparator]
  else [instances.dedup]

/-- `Wait` for the services and instances of a command. -/
def wait (polls : Nat → Db) (targets : List Text) (fuel : Nat) :
    List (List Text) → Nat → Option Nat
  | [], time => some time
  | keys :: rest, time => do
      let later ← gui.waitLoop polls keys targets fuel time
      wait polls targets fuel rest later

/-- A step of `RedisPublishDaqCommand`. -/
inductive PublishStep
  | publish (cmd : Text)
  | wait (targets : List Text)
  deriving DecidableEq

/-- The steps for a command, by the two flags. `boost::iequals` ignores case. -/
def publishSteps (v : Text) (waitDeviceReadyFlag waitReadyFlag : Bool) : List PublishStep :=
  let equals (cmd : Text) : Prop := Text.toLower v = Text.toLower cmd
  let connects : List PublishStep :=
    if waitDeviceReadyFlag then [.publish FairmqCommand.connect, .wait waitDeviceReadyTargets]
    else []
  if equals FairmqCommand.connect then
    .publish FairmqCommand.connect ::
      if waitDeviceReadyFlag then [.wait waitDeviceReadyTargets] else []
  else if equals FairmqCommand.initTask then
    connects ++ .publish FairmqCommand.initTask ::
      if waitReadyFlag then [.wait waitReadyTargets] else []
  else if equals FairmqCommand.run then
    connects ++
      (if waitReadyFlag then [.publish FairmqCommand.initTask, .wait waitReadyTargets] else []) ++
        [.publish FairmqCommand.run]
  else if equals FairmqCommand.stop then [.publish FairmqCommand.stop]
  else [.publish v]

/-- `toMessage`. -/
def toMessage (services instances : PTree) (cmd : Text) : Text :=
  gui.writeJson (.node []
    [(commandField, .leaf changeState), (valueField, .leaf cmd), (servicesField, services),
      (instancesField, instances)])

/-- Take the steps in order; a wait loop that does not end takes all polls. -/
def publishAll (services instances : PTree) (fuel : Nat) :
    List PublishStep → Nat → Except Fault (List Effect)
  | [], _ => .ok []
  | .publish cmd :: rest, time => do
      let later ← publishAll services instances fuel rest time
      return .publish gui.fChannelName (gui.toMessage services instances cmd) :: later
  | .wait targets :: rest, time =>
      match gui.wait request.polls targets fuel
          (gui.waitKeys services.values instances.values) time with
      | none => .error .waiting
      | some later => publishAll services instances fuel rest later

/-- `isWaitFlagSet`. -/
def isWaitFlagSet (name : Text) : Except Fault Bool := do
  match ← gui.get request name with
  | none => return false
  | some text =>
      let v := Text.toLower text
      return v = ['1'] ∨ v = "true".toList

/-- A mandatory child of the message. -/
def child (arg : PTree) (name : Text) : Except Fault PTree :=
  match arg.getChild name with
  | none => .error .badPath
  | some tree => .ok tree

/-- The block in front of which `RedisPublishDaqCommand` puts `try`. -/
def publishKnown (arg : PTree) (v : Text) (fuel : Nat) : Except Fault (List Effect) := do
  let waitDeviceReadyFlag ← gui.isWaitFlagSet request waitDeviceReady
  let waitReadyFlag ← gui.isWaitFlagSet request waitReady
  let services ← child arg servicesField
  let instances ← child arg instancesField
  gui.publishAll request services instances fuel
    (publishSteps v waitDeviceReadyFlag waitReadyFlag) 0

/-- `catch (...)`: an exception is logged. Exceptions come before the first step. -/
def caught : Except Fault (List Effect) → Except Fault (List Effect)
  | .error .waiting => .error .waiting
  | .error _ => .ok []
  | .ok effects => .ok effects

/-- `RedisPublishDaqCommand`. The commands run before and after `RUN` and `STOP`
are not part of the model. -/
def handlePublish (arg : PTree) (fuel : Nat) : Except Fault (List Effect) :=
  match arg.getOptional valueField with
  | none => .ok []
  | some v => do
      let copied ← (if v = FairmqCommand.run then gui.copyLatestRunNumber request else .ok [])
      if v ∈ knownCommandList then
        let published ← caught (gui.publishKnown request arg v fuel)
        return copied ++ published
      else return copied

/-- Call a function of the table. -/
def call (handler : Handler) (arg : PTree) (fuel : Nat) : Except Fault (List Effect) :=
  match handler with
  | .publish => gui.handlePublish request arg fuel
  | .get => gui.handleGet request arg
  | .set => gui.handleSet arg
  | .incr => gui.handleIncr request arg

/-- `ProcessData`. The subscript operator adds an empty function for a command
that the table does not have. -/
def processData (fuel : Nat) (fFuncList : FuncList) : FuncList × Except Fault (List Effect) :=
  match toJson gui.readJson request.text with
  | none => (fFuncList, .error .jsonParserError)
  | some obj =>
      match obj.getOptional commandField with
      | none => (fFuncList, .ok [])
      | some key =>
          match fFuncList.lookup key with
          | none => (fFuncList.insert key none, .error .badFunctionCall)
          | some none => (fFuncList, .error .badFunctionCall)
          | some (some handler) => (fFuncList, gui.call request handler obj fuel)

/-- The messages of the clients, until one of them makes an exception escape. -/
def processAll (fuel : Nat) (fFuncList : FuncList) :
    List Request → FuncList × Except Fault (List (List Effect))
  | [] => (fFuncList, .ok [])
  | request :: rest =>
      match gui.processData request fuel fFuncList with
      | (table, .error fault) => (table, .error fault)
      | (table, .ok effects) =>
          match processAll fuel table rest with
          | (last, .error fault) => (last, .error fault)
          | (last, .ok later) => (last, .ok (effects :: later))

end WebGui

end NestDaq.Controller
