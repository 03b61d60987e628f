import Mathlib.Data.List.MinMax
import NovaFederation.EventLoop
import NovaFederation.MigrationTable
import NovaFederation.PyString

/-!
# The places where migrations are accepted

Two REST endpoints, the scheduler and two gRPC methods create migrations. Each is the coroutine
of the source function of the same name; its state is the list of background tasks that the
process has been given. `IntakeCall` lists what they await, with the identifier that `uuid4`
draws, and `eval` stands for Python's evaluation of a trigger.

Log lines are left out, and so is the sleep between two passes of the scheduler.
-/

namespace NovaFederation
open Coroutine

/-- A VM of `list_vms`, as far as the scheduler reads it. -/
structure ListedVM where
  id : String
  name : String
  status : String
  deriving DecidableEq

structure Cluster where
  id : String
  name : String
  grpcAddr : String

structure ClusterMetric where
  cpuUsedPct : ℚ
  ramUsedPct : ℚ
  diskUsedPct : ℚ
  vmCount : ℕ

structure Policy where
  name : String
  enabled : Bool
  rule : List (String × String)

/-- The arguments of the gRPC methods. -/
structure MigrationRequest where
  vmId : String
  sourceCluster : String
  destCluster : String
  migrationId : String
  options : List (String × String)

inductive IntakeCall
  | uuid4
  | insert (row : Migration)
  | listVms
  | selectClusters
  | latestMetric (clusterId : String)
  | selectPolicies
  | delay (task : MigrationMessage)

@[reducible] def IntakeCall.Reply : IntakeCall → Type
  | .uuid4 => String
  | .insert _ => Unit
  | .listVms => List ListedVM
  | .selectClusters => List Cluster
  | .latestMetric _ => Option ClusterMetric
  | .selectPolicies => List Policy
  | .delay _ => Unit

abbrev Intake := Coroutine (List Execution) PyException IntakeCall IntakeCall.Reply

abbrev demand (c : IntakeCall) : Intake c.Reply := perform c

/-! ### REST -/

/-- The engine that the background task `_run_migration` creates. -/
def backgroundTask (cfg : Settings) (migrationId vmId : String) (body : MigrateRequest)
    (live : Bool) : Execution where
  migrationId
  vmId
  sourceClusterId := cfg.clusterId
  destClusterId := body.destClusterId
  type := migrationType live
  options := body.modelDump

theorem backgroundTask_context (cfg : Settings) (migrationId vmId : String)
    (body : MigrateRequest) (live : Bool) :
    (backgroundTask cfg migrationId vmId body live).context =
      runMigration cfg migrationId vmId body live := rfl

/-- The body of `migrate_vm` and of `live_migrate_vm`, which differ in the type. -/
def acceptMigration (cfg : Settings) (vmId : String) (body : MigrateRequest) (live : Bool) :
    Intake String := do
  let migrationId ← demand .uuid4
  demand (.insert {
    id := migrationId
    vmId
    sourceClusterId := cfg.clusterId
    destClusterId := body.destClusterId
    type := migrationType live
    options := body.modelDump })
  modify (· ++ [backgroundTask cfg migrationId vmId body live])
  pure migrationId

def migrateVm (cfg : Settings) (vmId : String) (body : MigrateRequest) : Intake String :=
  acceptMigration cfg vmId body false

def liveMigrateVm (cfg : Settings) (vmId : String) (body : MigrateRequest) : Intake String :=
  acceptMigration cfg vmId body true

/-! ### gRPC -/

def MigrationRequest.dict (request : MigrationRequest) : Options :=
  request.options.map fun (key, value) => (key, some value)

/-- The body of `ExecuteMigration` and of `ExecuteLiveMigration`. -/
def queueMigration (request : MigrationRequest) (live : Bool) : Intake String := do
  demand (.delay {
    migrationId := request.migrationId
    vmId := request.vmId
    sourceCluster := request.sourceCluster
    destCluster := request.destCluster
    options := request.dict
    live })
  pure request.migrationId

namespace CNFControlServicer

def executeMigration (request : MigrationRequest) : Intake String := queueMigration request false

def executeLiveMigration (request : MigrationRequest) : Intake String :=
  queueMigration request true

end CNFControlServicer

/-! ### The scheduler -/

structure ClusterSnapshot where
  clusterId : String
  clusterName : String
  grpcAddr : String
  cpuUsedPct : ℚ := 0
  ramUsedPct : ℚ := 0
  diskUsedPct : ℚ := 0
  vmCount : ℕ := 0
  deriving DecidableEq

/-- The names that a trigger may use. -/
structure TriggerContext where
  cpuPct : ℚ
  ramPct : ℚ
  diskPct : ℚ
  vmCount : ℕ

/-- What evaluating an expression gives, as a truth value; `none` when it raises. -/
abbrev TriggerEval := String → TriggerContext → Option Bool

/-- `rule.get(key, default)`. -/
def Policy.get (policy : Policy) (key default : String) : String :=
  (policy.rule.lookup key).getD default

namespace Scheduler

def snapshot (cluster : Cluster) (metric : Option ClusterMetric) : ClusterSnapshot :=
  match metric with
  | some metric => {
      clusterId := cluster.id
      clusterName := cluster.name
      grpcAddr := cluster.grpcAddr
      cpuUsedPct := metric.cpuUsedPct
      ramUsedPct := metric.ramUsedPct
      diskUsedPct := metric.diskUsedPct
      vmCount := metric.vmCount }
  | none => {
      clusterId := cluster.id
      clusterName := cluster.name
      grpcAddr := cluster.grpcAddr }

def snapshots : List Cluster → Intake (List ClusterSnapshot)
  | [] => pure []
  | cluster :: clusters => do
    let metric ← demand (.latestMetric cluster.id)
    let rest ← snapshots clusters
    pure (snapshot cluster metric :: rest)

def collectSnapshots : Intake (List ClusterSnapshot) := do
  let clusters ← demand .selectClusters
  snapshots clusters

def loadPolicies : Intake (List Policy) := demand .selectPolicies

/-- A trigger that raises does not fire. -/
def evalTrigger (eval : TriggerEval) (trigger : String) (snap : ClusterSnapshot) : Bool :=
  (eval trigger ⟨snap.cpuUsedPct, snap.ramUsedPct, snap.diskUsedPct, snap.vmCount⟩).getD false

/-- The first of the least loaded candidates, by any measure of their load; an unknown strategy
takes the first of all. -/
def pickDestBy {K : Type} [LinearOrder K] (load : ClusterSnapshot → K)
    (candidates : List ClusterSnapshot) (strategy : String) : Option ClusterSnapshot :=
  if strategy = "least_loaded" then
    candidates.argmin load
  else if strategy = "least_vms" then
    candidates.argmin fun s => s.vmCount
  else candidates.head?

/-- The load is the sum of two percentages, without the rounding of a sum of doubles. -/
def pickDest (candidates : List ClusterSnapshot) (strategy : String) : Option ClusterSnapshot :=
  pickDestBy (fun s => s.cpuUsedPct + s.ramUsedPct) candidates strategy

def rebalanceRow (migrationId : String) (vm : ListedVM) (source dest : ClusterSnapshot)
    (action : String) : Migration where
  id := migrationId
  vmId := vm.id
  vmName := some vm.name
  sourceClusterId := source.clusterId
  destClusterId := dest.clusterId
  type := migrationType (PyString.contains "live" action)
  initiatedBy := some "scheduler"
  options := [("dest_host", some ""), ("dest_next_hop", some "")]

/-- The VMs are those of the scheduler's own client, whatever the source cluster is. The result
is the migration that the log reports as queued. -/
def triggerRebalance (source dest : ClusterSnapshot) (action : String) :
    Intake (Option String) := do
  let vms ← demand .listVms
  match vms.filter (·.status == "ACTIVE") with
  | [] => pure none
  | vm :: _ =>
    let migrationId ← demand .uuid4
    demand (.insert (rebalanceRow migrationId vm source dest action))
    pure (some migrationId)

def applyPolicy (eval : TriggerEval) (policy : Policy) (snapshots : List ClusterSnapshot) :
    Intake Unit :=
  let violating := snapshots.filter (evalTrigger eval (policy.get "trigger" ""))
  if violating.isEmpty then
    pure ()
  else
    let candidates := snapshots.filter (· ∉ violating)
    match pickDest candidates (policy.get "target" "least_loaded") with
    | none => pure ()
    | some dest =>
      violating.forM fun source => do
        let _ ← triggerRebalance source dest (policy.get "action" "")

def evaluate (eval : TriggerEval) : Intake Unit := do
  let snapshots ← collectSnapshots
  let policies ← loadPolicies
  policies.forM fun policy => do
    if policy.enabled then
      try
        applyPolicy eval policy snapshots
      catch _ => pure ()
    else pure ()

def pass (eval : TriggerEval) : Intake Unit :=
  tryCatch (evaluate eval) fun _ => pure ()

end Scheduler

end NovaFederation
