import Mathlib.Data.List.Infix
import NovaFederation.MigrationModel

/-!
# The migration engines

`MigrationEngine` holds what both engines share, `BGPManager` and `QEMUMigrationTunnel` the two
helpers with control flow of their own, and `ColdMigrationEngine` and `LiveMigrationEngine` the
steps. Each definition is the coroutine of the source function of the same name. Log lines and
Prometheus counters are left out.
-/

namespace NovaFederation
open Coroutine (read modify)

/-! ### Remote calls that need a client -/

def attributeError (name : String) : PyException :=
  ⟨.attributeError, s!"'NoneType' object has no attribute '{name}'"⟩

namespace CNFControlStub
variable {peer : Side}

def withdrawIP : Option (CNFControlStub peer) → String → Engine BGPResponse
  | none, _ => throw (attributeError "WithdrawIP")
  | some _, pfx => await (.withdrawIP peer pfx)

def announceIP : Option (CNFControlStub peer) → String → Engine BGPResponse
  | none, _ => throw (attributeError "AnnounceIP")
  | some _, pfx => await (.announceIP peer pfx)

end CNFControlStub

namespace BGPManager
variable {peer : Side}

def handoff (prefixes : List String) (destNextHop : Option String)
    (sourceGrpcClient : Option (CNFControlStub peer)) : Engine Unit := do
  prefixes.forM fun pfx =>
    await (.announce ⟨pfx, destNextHop⟩)
  prefixes.forM fun pfx => do
    try
      let _ ← CNFControlStub.withdrawIP sourceGrpcClient pfx
    catch _ => pure ()
  prefixes.forM fun pfx =>
    await (.waitConvergence pfx)

def rollback (prefixes : List String)
    (sourceGrpcClient : Option (CNFControlStub peer)) : Engine Unit :=
  prefixes.forM fun pfx => do
    await (.withdraw pfx)
    try
      let _ ← CNFControlStub.announceIP sourceGrpcClient pfx
    catch _ => pure ()

end BGPManager

namespace MigrationEngine

def transition (task : Task) (state : MigrationState) (progress : ℚ) : Engine Unit := do
  modify fun s => { s with ctx := { s.ctx with state, progress } }
  await (.transition task state progress)

def fail (error : String) : Engine Unit := do
  modify fun s => { s with ctx := { s.ctx with error } }
  await (.fail error)

def registerRollback (fn : Rollback) : Engine Unit :=
  modify fun s => { s with rollbacks := s.rollbacks ++ [fn] }

/-- The body of `_rollback_disk` and of `_rollback_cutover`, which are the same but for the
text they log. -/
def forcePromoteAll (cfg : Settings) : Engine Unit := do
  let s ← read
  s.ctx.rbdImages.forM fun image => do
    try
      await (.promote cfg.pool image true)
    catch _ => pure ()

/-- The destination promotion loop of both engines. -/
def promoteAll (cfg : Settings) : Engine Unit := do
  let s ← read
  s.ctx.rbdImages.forM fun image => do
    if s.ctx.destGrpcClient.isSome then
      -- the response is not looked at: `success=False` passes for a promotion
      let _ ← await (.promoteRBDImage .dest cfg.pool image)
    else
      await (.promote cfg.pool image false)

end MigrationEngine

namespace QEMUMigrationTunnel

def abort (vmId sourceHost : String) : Engine Unit := do
  modify fun s => { s with cancelled := true }
  try
    await (.abortJob sourceHost vmId)
  catch _ => pure ()

def getProgressPct (sourceHost vmId : String) : Engine ℚ := do
  try
    let info ← await (.jobInfo sourceHost vmId)
    match info with
    | some info =>
      if 0 < info.total then
        pure (min 99 ((info.processed : ℚ) / info.total * 100))
      else pure 0
    | none => pure 0
  catch _ => pure 0

/-- The monitor loop, for the wake-ups that happen before `run` cancels it. -/
def monitorProgress (sourceHost vmId : String) (callback : ℚ → Engine Unit) : ℕ → Engine Unit
  | 0 => pure ()
  | polls + 1 => do
    let s ← read
    if s.cancelled then
      pure ()
    else
      try
        let pct ← getProgressPct sourceHost vmId
        callback pct
      catch _ => pure ()
      monitorProgress sourceHost vmId callback polls

/-- `monitor` is the callback as the monitor task awaits it, `progress` as `run` does. -/
def run (vmId sourceHost destHost : String) (monitor progress : ℚ → Engine Unit) :
    Engine Unit := do
  let polls ← tryCatch (await .monitorPolls) fun _ => pure 0
  monitorProgress sourceHost vmId monitor polls
  let job ← await (.doMigrate vmId sourceHost destHost)
  match job.raised with
  | some e => throw e
  | none => progress 100

end QEMUMigrationTunnel

def ColdMigrationEngine.rollbackDisk (cfg : Settings) : Engine Unit :=
  MigrationEngine.forcePromoteAll cfg

def LiveMigrationEngine.rollbackCutover (cfg : Settings) : Engine Unit :=
  MigrationEngine.forcePromoteAll cfg

namespace MigrationEngine

def invoke (cfg : Settings) : Rollback → Engine Unit
  | .disk => ColdMigrationEngine.rollbackDisk cfg
  | .cutover => LiveMigrationEngine.rollbackCutover cfg
  | .bgp prefixes => do
    -- the closure reads `self.ctx.dest_grpc_client` when it is called
    let s ← read
    BGPManager.rollback prefixes s.ctx.destGrpcClient
  | .tunnelAbort vmId sourceHost => QEMUMigrationTunnel.abort vmId sourceHost

def attempt (cfg : Settings) (rb : Rollback) : Engine Unit := do
  modify fun s => { s with attempted := s.attempted ++ [rb] }
  try
    invoke cfg rb
  catch _ => pure ()

def runRollbacks (cfg : Settings) : Engine Unit := do
  let s ← read
  s.rollbacks.reverse.forM (attempt cfg)

def abort (cfg : Settings) (reason : String) : Engine Unit := do
  modify fun s => { s with aborted := true }
  fail s!"Aborted: {reason}"
  runRollbacks cfg

def compensate (cfg : Settings) (e : PyException) : Engine Bool := do
  fail e.message
  runRollbacks cfg
  pure false

def guarded (cfg : Settings) (body : Engine Bool) : Engine Bool :=
  tryCatch body (compensate cfg)

/-- The preflight step of both engines, which differ in the power states they admit and in the
text of the refusal. -/
def preflight (cfg : Settings) (admits : String → Bool) (refusal : String → VMDetails → String) :
    Engine Unit := do
  transition .run .preflight 5
  let s ← read
  let vm ← await (.getVm s.ctx.vmId)
  modify fun s => { s with ctx := { s.ctx with vm := some vm } }
  if admits vm.status then
    modify fun s => { s with ctx := { s.ctx with
      rbdImages := s.ctx.rbdImages ++ vm.volumeIds.map (s!"volume-{·}")
      vmIps := if vm.floatingIps.isEmpty then vm.ips else vm.floatingIps } }
    let s ← read
    s.ctx.rbdImages.forM fun image => do
      let (ok, reason) ← await (.preflightCheck cfg.pool image cfg.migrationMaxLagBytes)
      if ok then
        pure ()
      else
        throw ⟨.migrationError, s!"RBD preflight failed for {image}: {reason}"⟩
  else
    throw ⟨.migrationError, refusal s.ctx.vmId vm⟩

def prefixes (ctx : MigrationContext) : List String := ctx.vmIps.map (s!"{·}/32")

/-- The cleanup step of both engines: a failed deletion is logged and forgotten. -/
def cleanup (progress : ℚ) : Engine Unit := do
  transition .run .cleanup progress
  let s ← read
  try
    await (.deleteVm s.ctx.vmId)
  catch _ => pure ()

end MigrationEngine

open MigrationEngine

namespace ColdMigrationEngine

def admits (status : String) : Bool := status == "ACTIVE" || status == "SHUTOFF"

def stepPreflight (cfg : Settings) : Engine Unit :=
  preflight cfg admits fun vmId vm =>
    s!"VM {vmId} is in state {vm.status}, expected ACTIVE or SHUTOFF"

def stepDisk (cfg : Settings) : Engine Unit := do
  transition .run .disk 20
  let s ← read
  (if s.ctx.vm.any (·.status == "ACTIVE") then await (.stopVm s.ctx.vmId) else pure ())
  s.ctx.rbdImages.forM fun image => do
    let _ ← await (.waitForSync cfg.pool image none 300)
  s.ctx.rbdImages.forM fun image =>
    await (.demote cfg.pool image)
  registerRollback .disk
  promoteAll cfg
  transition .run .disk 50

/-- Python's `vol_id in image`. -/
def isSubstring (volumeId image : String) : Bool :=
  decide (volumeId.toList <:+: image.toList)

/-- The volume is looked up by the first attached id that occurs in the image name. -/
def lookupVolume (vm : VMDetails) (image : String) : Engine (Option VolumeInfo) :=
  match vm.volumeIds.find? (isSubstring · image) with
  | some volumeId => do
    try
      let volume ← await (.getVolume volumeId)
      pure (some volume)
    catch _ => pure none
  | none => pure none

def stepCutover (cfg : Settings) : Engine Unit := do
  transition .run .cutover 70
  let s ← read
  match s.ctx.vm with
  | none => pure ()
  | some vm =>
    s.ctx.rbdImages.forM fun image => do
      let volInfo ← lookupVolume vm image
      let sizeGb := match volInfo with
        | some volume => volume.sizeGb
        | none => 10
      let _ ← await (.createVolumeFromRbd cfg.pool image sizeGb s!"cnf-migrated-{image}")

def stepBgp : Engine Unit := do
  transition .run .bgp 85
  let s ← read
  if s.ctx.vmIps.isEmpty then
    pure ()
  else
    BGPManager.handoff (prefixes s.ctx) (some "") s.ctx.sourceGrpcClient
    registerRollback (.bgp (prefixes s.ctx))

def stepCleanup : Engine Unit := cleanup 95

/-- What is left of the `try` body once the abort flag has been found unset. -/
def steps (cfg : Settings) : Engine Bool := do
  stepDisk cfg
  stepCutover cfg
  stepBgp
  stepCleanup
  transition .run .done 100
  pure true

def body (cfg : Settings) : Engine Bool := do
  stepPreflight cfg
  let s ← read
  if s.aborted then
    pure false
  else
    steps cfg

def run (cfg : Settings) : Engine Bool := guarded cfg (body cfg)

end ColdMigrationEngine

namespace LiveMigrationEngine

def admits (status : String) : Bool := status == "ACTIVE"

def stepPreflight (cfg : Settings) : Engine Unit :=
  preflight cfg admits fun _ vm =>
    s!"Live migration requires VM to be ACTIVE, got {vm.status}"

def stepDiskSync (cfg : Settings) : Engine Unit := do
  transition .run .disk 15
  let s ← read
  s.ctx.rbdImages.forM fun image => do
    let _ ← await (.getMirrorStatus cfg.pool image)

/-- `_progress_cb`, awaited by the given task. -/
def progressCb (task : Task) (pct : ℚ) : Engine Unit :=
  transition task .memory (25 + pct * (1 / 2))

def stepMemory : Engine Unit := do
  transition .run .memory 25
  let s ← read
  match s.ctx.vm with
  | none => pure ()
  | some vm =>
    match s.ctx.options.get "dest_host" "" with
    | none | some "" =>
      throw ⟨.migrationError, "dest_host must be specified for live migration"⟩
    | some destHost =>
      registerRollback (.tunnelAbort s.ctx.vmId vm.host)
      QEMUMigrationTunnel.run s.ctx.vmId vm.host destHost (progressCb .monitor) (progressCb .run)

def stepCutover (cfg : Settings) : Engine Unit := do
  transition .run .cutover 80
  let s ← read
  s.ctx.rbdImages.forM fun image => do
    let _ ← await (.waitForSync cfg.pool image (some 0) 60)
    await (.demote cfg.pool image)
  registerRollback .cutover
  promoteAll cfg

def stepBgp : Engine Unit := do
  transition .run .bgp 90
  let s ← read
  if s.ctx.vmIps.isEmpty then
    pure ()
  else
    BGPManager.handoff (prefixes s.ctx) (s.ctx.options.get "dest_next_hop" "")
      s.ctx.sourceGrpcClient

def stepCleanup : Engine Unit := cleanup 96

def steps (cfg : Settings) : Engine Bool := do
  stepDiskSync cfg
  stepMemory
  stepCutover cfg
  stepBgp
  stepCleanup
  transition .run .done 100
  pure true

def body (cfg : Settings) : Engine Bool := do
  stepPreflight cfg
  let s ← read
  if s.aborted then
    pure false
  else
    steps cfg

def run (cfg : Settings) : Engine Bool := guarded cfg (body cfg)

end LiveMigrationEngine

/-! ### Entry points -/

structure MigrateRequest where
  destClusterId : String
  destHost : Option String := none
  destNextHop : Option String := none

/-- `req.model_dump()`. -/
def MigrateRequest.modelDump (req : MigrateRequest) : Options :=
  [("dest_cluster_id", some req.destClusterId), ("dest_host", req.destHost),
    ("dest_next_hop", req.destNextHop)]

def migrationType (live : Bool) : MigrationType := if live then .live else .cold

/-- The context that `_run_migration` builds for a request to the API. -/
def runMigration (cfg : Settings) (migrationId vmId : String) (req : MigrateRequest)
    (live : Bool) : MigrationContext where
  migrationId
  vmId
  sourceClusterId := cfg.clusterId
  destClusterId := req.destClusterId
  migrationType := migrationType live
  options := req.modelDump

/-- The context that `_execute_migration` builds for a queued task. -/
def executeMigration (migrationId vmId sourceCluster destCluster : String) (options : Options)
    (live : Bool) : MigrationContext where
  migrationId
  vmId
  sourceClusterId := sourceCluster
  destClusterId := destCluster
  migrationType := migrationType live
  options

def MigrationType.body : MigrationType → Settings → Engine Bool
  | .cold => ColdMigrationEngine.body
  | .live => LiveMigrationEngine.body

def MigrationType.run : MigrationType → Settings → Engine Bool
  | .cold => ColdMigrationEngine.run
  | .live => LiveMigrationEngine.run

theorem MigrationType.run_eq (kind : MigrationType) (cfg : Settings) :
    kind.run cfg = guarded cfg (kind.body cfg) := by
  cases kind <;> rfl

end NovaFederation
