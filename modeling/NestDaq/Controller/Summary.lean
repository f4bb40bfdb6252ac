import NestDaq.Message.Tree
import NestDaq.Plugin.State
import NestDaq.Text.Order

/-!
# The state summary

The controller polls the states of all instances and tells the web clients what it
has found, service by service, with two flags: whether the list of services and
whether the list of instances differs from the last table.
-/

namespace NestDaq.Controller

open NestDaq.Message
open NestDaq.Plugin

structure InstanceState where
  state : Text
  date : Text

/-- What is known of a service; `counts` counts its instances by state. -/
structure ServiceState where
  instances : AList fun _ : Text => InstanceState
  counts : List Nat
  date : Text

/-- The table, by service. -/
abbrev SummaryTable := AList fun _ : Text => ServiceState

/-- `GetStateName` of the numbers from zero to `NStates`. -/
def stateNames : List Text :=
  ["UNDEFINED".toList, "OK".toList, DeviceState.error.name, DeviceState.idle.name,
    DeviceState.initializingDevice.name, DeviceState.initialized.name, DeviceState.binding.name,
    DeviceState.bound.name, DeviceState.connecting.name, DeviceState.deviceReady.name,
    DeviceState.initializingTask.name, DeviceState.ready.name, DeviceState.running.name,
    DeviceState.resettingTask.name, DeviceState.resettingDevice.name, DeviceState.exiting.name]

/-- `serviceListChanged`. -/
def serviceListChanged (prevTable summaryTable : SummaryTable) : Bool :=
  decide (prevTable.entries.length ≠ summaryTable.entries.length) ||
    (ordered summaryTable).any fun (k, _) => k ∉ prevTable

/-- `instanceListChanged`. -/
def instanceListChanged (prevTable summaryTable : SummaryTable) : Bool :=
  serviceListChanged prevTable summaryTable ||
    (ordered summaryTable).any fun (k, v) =>
      (prevTable.lookup k).any fun srv =>
        decide (srv.instances.entries.length ≠ v.instances.entries.length) ||
          (ordered v.instances).any fun (instK, _) => instK ∉ srv.instances

def flag (value : Bool) : PTree :=
  .leaf (if value then "true".toList else "false".toList)

def number (value : Nat) : PTree :=
  .leaf (Text.decimal value)

def text (value : String) : PTree :=
  .leaf value.toList

/-- A tree with named children. -/
def object (children : List (String × PTree)) : PTree :=
  .node [] (children.map fun (name, child) => (name.toList, child))

/-- A tree with children that have no name. -/
def items (children : List PTree) : PTree :=
  .node [] (children.map fun child => ([], child))

/-- The entry of a state in the counts of a service. -/
def countTree (summary : ServiceState) (i : Nat) (name : Text) : PTree :=
  object [("state-id", number i), ("name", .leaf name), ("value", number (summary.counts.getD i 0))]

def instanceTree (service instName : Text) (istate : InstanceState) : PTree :=
  object [("service", .leaf service), ("instance", .leaf instName), ("state", .leaf istate.state),
    ("date", .leaf istate.date)]

def serviceTree (service : Text) (summary : ServiceState) : PTree :=
  object [("service", .leaf service), ("date", .leaf summary.date),
    ("n_instances", number summary.instances.entries.length),
    ("counts", items (stateNames.zipIdx.map fun (name, i) => countTree summary i name)),
    ("instances", items ((ordered summary.instances).map fun (instName, istate) =>
      instanceTree service instName istate))]

/-- The message about a table that follows another one. -/
def summaryTree (prevTable summaryTable : SummaryTable) : PTree :=
  object [("type", text "state-summary-table"),
    ("service_list_changed", flag (serviceListChanged prevTable summaryTable)),
    ("instance_list_changed", flag (instanceListChanged prevTable summaryTable)),
    ("services", items ((ordered summaryTable).map fun (service, summary) =>
      serviceTree service summary))]

end NestDaq.Controller
