import NestDaq.Registry.Keys

/-!
# Keys and fields of the metrics

The metrics of all instances are kept in common hashes, one for each kind of value.
An instance has the field of its id in the hashes of its process, and in the hashes of
its sockets a field for each of its sub-channels.
-/

namespace NestDaq.Metrics

open NestDaq.Registry

def metricsPrefix : Text := "metrics".toList

/-- `<top>:<name>`. -/
def metricsKey (name : String) : Text :=
  Text.join [metricsPrefix, name.toList] colon

structure ProcessStatKey where
  cpu : Text
  ram : Text
  stateId : Text

structure SocketMetricsKey where
  msgIn : Text
  bytesIn : Text
  msgOut : Text
  bytesOut : Text
  deriving DecidableEq

/-- `Append`. -/
def append (input : SocketMetricsKey) (s separator : Text) : SocketMetricsKey where
  msgIn := Text.join [input.msgIn, s] separator
  bytesIn := Text.join [input.bytesIn, s] separator
  msgOut := Text.join [input.msgOut, s] separator
  bytesOut := Text.join [input.bytesOut, s] separator

def fStateKey : Text := metricsKey "state"
def fLastUpdateKey : Text := metricsKey "last-update"
def fLastUpdateNSKey : Text := metricsKey "last-update-ns"
def fStartTimeKey : Text := metricsKey "start_time"
def fStartTimeNSKey : Text := metricsKey "start_time_ns"
def fStopTimeKey : Text := metricsKey "stop_time"
def fStopTimeNSKey : Text := metricsKey "stop_time_ns"
def fRunNumberKey : Text := metricsKey "run_number"
def fCreatedTimeKey : Text := metricsKey "created-time"
def fHostNameKey : Text := metricsKey "hostname"
def fIpAddressKey : Text := metricsKey "host-ip"

def fProcKey : ProcessStatKey where
  cpu := metricsKey "cpu-stat"
  ram := metricsKey "ram-stat"
  stateId := metricsKey "state-id"

def fSockKey : SocketMetricsKey where
  msgIn := metricsKey "msg-in"
  bytesIn := metricsKey "mb-in"
  msgOut := metricsKey "msg-out"
  bytesOut := metricsKey "mb-out"

def fSockSumKey : SocketMetricsKey :=
  append fSockKey "sum".toList ['-']

def fNumMessageKey : Text := metricsKey "num-msg"
def fBytesKey : Text := metricsKey "mb"
def fNumMessageSumKey : Text := metricsKey "num-msg-sum"
def fBytesSumKey : Text := metricsKey "mb-sum"

/-- `fRegisteredKeys`: the hashes with a field for each instance. -/
def fRegisteredKeys : List Text :=
  [fStateKey, fLastUpdateKey, fLastUpdateNSKey, fStartTimeKey, fStartTimeNSKey, fStopTimeKey,
    fStopTimeNSKey, fRunNumberKey, fProcKey.stateId, fProcKey.cpu, fProcKey.ram, fCreatedTimeKey,
    fHostNameKey, fIpAddressKey]

/-- `fRegisteredSockKeys`: the hashes with a field for each sub-channel. -/
def fRegisteredSockKeys : List Text :=
  [fSockKey.msgIn, fSockKey.bytesIn, fSockKey.msgOut, fSockKey.bytesOut, fSockSumKey.msgIn,
    fSockSumKey.bytesIn, fSockSumKey.msgOut, fSockSumKey.bytesOut, fNumMessageKey, fBytesKey,
    fNumMessageSumKey, fBytesSumKey]

/-- No hash is of both kinds. -/
theorem disjoint_registeredKeys : fRegisteredKeys.Disjoint fRegisteredSockKeys := by
  have apart : ∀ key ∈ fRegisteredKeys, key ∉ fRegisteredSockKeys := by decide +kernel
  exact apart

inductive Direction
  | input
  | output
  deriving DecidableEq

def Direction.suffix : Option Direction → Text
  | none => []
  | some .input => ".in".toList
  | some .output => ".out".toList

/-- `<channel>[<n>]`. -/
def subChannelName (channelName subChannelIndex : Text) : Text :=
  channelName ++ "[".toList ++ subChannelIndex ++ "]".toList

/-- A field in a hash of sockets. -/
structure SocketField where
  id : Text
  channel : Text
  index : Nat
  direction : Option Direction

namespace SocketField

variable (field : SocketField)

/-- What follows the id and the separator. -/
def socket : Text :=
  subChannelName field.channel (Text.decimal field.index) ++ Direction.suffix field.direction

/-- `<id>:<channel>[<n>]`, followed by `.in` or `.out` in some hashes. -/
def text : Text :=
  Text.join [field.id, field.socket] colon

theorem text_eq : field.text = field.id ++ ':' :: field.socket := by
  simp [text, colon]

end SocketField

end NestDaq.Metrics
