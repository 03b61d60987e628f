import Mathlib.Algebra.Order.Ring.Rat
import NovaFederation.CoroutineLogic

/-!
# Data of a migration and the calls it awaits

A migration runs between a source and a destination cluster. `Call` lists everything that the
engines await outside their own process, one constructor for each client method, database
transaction or executor job, and `Call.Reply` the value each of them returns. Every call may
raise instead. `EngineState` is the engine object: its context, its rollback list and its
abort flag.
-/

namespace NovaFederation

inductive Side
  | source
  | dest
  deriving DecidableEq

inductive MigrationType
  | cold
  | live
  deriving DecidableEq

inductive MigrationState
  | pending
  | preflight
  | disk
  | memory
  | cutover
  | bgp
  | cleanup
  | done
  | failed
  | aborted
  deriving DecidableEq

def MigrationState.value : MigrationState → String
  | .pending => "pending"
  | .preflight => "preflight"
  | .disk => "disk"
  | .memory => "memory"
  | .cutover => "cutover"
  | .bgp => "bgp"
  | .cleanup => "cleanup"
  | .done => "done"
  | .failed => "failed"
  | .aborted => "aborted"

/-- The states that a step of an engine writes before its calls. -/
def MigrationState.isStep : MigrationState → Bool
  | .preflight => true
  | .disk => true
  | .memory => true
  | .cutover => true
  | .bgp => true
  | .cleanup => true
  | _ => false

inductive ExceptionKind
  | migrationError
  | cephError
  | cephSyncTimeout
  | bgpError
  | vmNotFound
  | vmError
  | vmTimeout
  | attributeError
  | other
  deriving DecidableEq

structure PyException where
  kind : ExceptionKind
  message : String
  deriving DecidableEq

structure HTTPException where
  statusCode : ℕ
  detail : String
  deriving DecidableEq

structure VMDetails where
  status : String
  host : String
  ips : List String
  floatingIps : List String
  volumeIds : List String

structure MirrorStatus where
  image : String
  pool : String
  state : String
  description : String
  lagBytes : ℤ
  lagSeconds : ℤ
  synced : Bool

structure VolumeInfo where
  sizeGb : ℕ

structure BGPRoute where
  pfx : String
  nextHop : Option String
  deriving DecidableEq

/-- Answers of the remote servicers, which report a failure as an ordinary reply. -/
structure RBDPromoteResponse where
  success : Bool
  message : String

structure BGPResponse where
  success : Bool

/-- Counters 3 and 4 of libvirt's `jobInfo`. -/
structure JobInfo where
  total : ℕ
  processed : ℕ

/-- How the libvirt calls of the migration thread went: `none` when a call returned, the
exception when it raised. A call that is never reached is not looked at. -/
structure MigrateJob where
  openSource : Option PyException
  lookupByName : Option PyException
  openDest : Option PyException
  migrateToURI3 : Option PyException
  closeDest : Option PyException
  closeSource : Option PyException

/-- The exception that leaves `_do_migrate`; one raised by a `close` of a `finally` block
replaces the one that was on its way. -/
def MigrateJob.raised (j : MigrateJob) : Option PyException :=
  if j.openSource.isSome then j.openSource
  else
    let inner :=
      if j.lookupByName.isSome then j.lookupByName
      else if j.openDest.isSome then j.openDest
      else j.closeDest.or j.migrateToURI3
    j.closeSource.or inner

def MigrateJob.migrated (j : MigrateJob) : Bool :=
  j.openSource.isNone && j.lookupByName.isNone && j.openDest.isNone && j.migrateToURI3.isNone

theorem MigrateJob.migrated_of_raised_eq_none {j : MigrateJob} (hj : j.raised = none) :
    j.migrated = true := by
  rcases j with ⟨_ | _, _ | _, _ | _, _ | _, _ | _, _ | _⟩ <;>
    simp [MigrateJob.raised, MigrateJob.migrated] at hj ⊢

structure CNFControlStub (peer : Side) where

abbrev Options := List (String × Option String)

/-- `options.get(key, default)`. A key may be present with the value `None`. -/
def Options.get (options : Options) (key default : String) : Option String :=
  (options.lookup key).getD (some default)

structure MigrationContext where
  migrationId : String
  vmId : String
  sourceClusterId : String
  destClusterId : String
  migrationType : MigrationType
  options : Options := []
  vm : Option VMDetails := none
  rbdImages : List String := []
  vmIps : List String := []
  sourceGrpcClient : Option (CNFControlStub .source) := none
  destGrpcClient : Option (CNFControlStub .dest) := none
  state : MigrationState := .pending
  progress : ℚ := 0
  error : String := ""

structure Settings where
  pool : String
  migrationMaxLagBytes : ℕ
  clusterId : String

/-- The task that awaits a transaction: `run()` itself or the progress monitor. -/
inductive Task
  | run
  | monitor
  deriving DecidableEq

inductive Call
  | transition (task : Task) (state : MigrationState) (progress : ℚ)
  | fail (error : String)
  | getVm (vmId : String)
  | stopVm (vmId : String)
  | deleteVm (vmId : String)
  | getVolume (volumeId : String)
  | createVolumeFromRbd (pool image : String) (sizeGb : ℕ) (name : String)
  | preflightCheck (pool image : String) (maxLagBytes : ℕ)
  | getMirrorStatus (pool image : String)
  | waitForSync (pool image : String) (maxLagBytes : Option ℕ) (timeoutSeconds : ℕ)
  | demote (pool image : String)
  | promote (pool image : String) (force : Bool)
  | promoteRBDImage (peer : Side) (pool image : String)
  | announce (route : BGPRoute)
  | withdraw (pfx : String)
  | announceIP (peer : Side) (pfx : String)
  | withdrawIP (peer : Side) (pfx : String)
  | waitConvergence (pfx : String)
  | doMigrate (vmId sourceHost destHost : String)
  | monitorPolls
  | jobInfo (sourceHost vmId : String)
  | abortJob (sourceHost vmId : String)
  deriving DecidableEq

/-- What a call returns. The progress monitor runs beside the migration thread; `monitorPolls`
stands for the number of its wake-ups before that thread ends. -/
@[reducible] def Call.Reply : Call → Type
  | .transition .. => Unit
  | .fail .. => Unit
  | .getVm .. => VMDetails
  | .stopVm .. => Unit
  | .deleteVm .. => Unit
  | .getVolume .. => VolumeInfo
  | .createVolumeFromRbd .. => String
  | .preflightCheck .. => Bool × String
  | .getMirrorStatus .. => MirrorStatus
  | .waitForSync .. => MirrorStatus
  | .demote .. => Unit
  | .promote .. => Unit
  | .promoteRBDImage .. => RBDPromoteResponse
  | .announce .. => Unit
  | .withdraw .. => Unit
  | .announceIP .. => BGPResponse
  | .withdrawIP .. => BGPResponse
  | .waitConvergence .. => Unit
  | .doMigrate .. => MigrateJob
  | .monitorPolls => ℕ
  | .jobInfo .. => Option JobInfo
  | .abortJob .. => Unit

/-- A registered compensation, with what its closure captured. -/
inductive Rollback
  | disk
  | cutover
  | bgp (prefixes : List String)
  | tunnelAbort (vmId sourceHost : String)
  deriving DecidableEq

/-- The engine object. `attempted` is no field of the source: it records the handlers that
`_run_rollbacks` has called, in order. `cancelled` is the tunnel's flag. -/
structure EngineState where
  ctx : MigrationContext
  rollbacks : List Rollback := []
  aborted : Bool := false
  cancelled : Bool := false
  attempted : List Rollback := []

def EngineState.init (ctx : MigrationContext) : EngineState := { ctx }

abbrev Engine := Coroutine EngineState PyException Call Call.Reply

abbrev await (c : Call) : Engine c.Reply := Coroutine.perform c

abbrev Trace := History PyException Call Call.Reply
abbrev World := Oracle PyException Call Call.Reply

end NovaFederation
