import NovaFederation.MigrationEngine
import NovaFederation.CallOrder

/-!
# The law of a migration saga

`Law` states for each call of `run()` what must have happened before it, relative to the
`Plan` that the preflight step fixes: the images, the prefixes and whether a destination
client is there. Forward calls are only issued while no earlier reply made a step raise;
the calls of rollback handlers only after the failure has been recorded.

`Going` and `Stopped` are the assertions between two calls and after an escaped exception.
Everything that the later modules say about whole runs is read off these.
-/

namespace NovaFederation
open History

abbrev CallEvent := Event PyException Call Call.Reply

def MigrationType.admits : MigrationType → String → Bool
  | .cold => ColdMigrationEngine.admits
  | .live => LiveMigrationEngine.admits

/-- Calls of the steps, as opposed to the failure record and the rollback handlers. -/
def Call.isForward : Call → Bool
  | .fail _ => false
  | .promote _ _ force => !force
  | .withdraw _ => false
  | .announceIP _ _ => false
  | .abortJob _ _ => false
  | _ => true

/-- Calls whose exceptions do not leave the step that issues them. -/
def Call.swallowed : Call → Bool
  | .transition .monitor _ _ => true
  | .monitorPolls => true
  | .jobInfo _ _ => true
  | .getVolume _ => true
  | .withdrawIP _ _ => true
  | .deleteVm _ => true
  | _ => false

/-- Replies that the step answers with an exception of its own. -/
def Call.refused (kind : MigrationType) : (c : Call) → c.Reply → Bool
  | .getVm _, vm => !kind.admits vm.status
  | .preflightCheck _ _ _, v => !v.1
  | .doMigrate _ _ _, job => job.raised.isSome
  | _, _ => false

def escapes (kind : MigrationType) (e : CallEvent) : Bool :=
  match e.reply with
  | .ok v => e.call.refused kind v
  | .error _ => !e.call.swallowed

def Clean (kind : MigrationType) (h : Trace) : Prop :=
  ∀ e ∈ h, e.call.isForward = true ∧ escapes kind e = false

/-! ### Events -/

section Events
variable (cfg : Settings)

def Preflighted (image : String) (e : CallEvent) : Prop :=
  ∃ reason, e = ⟨.preflightCheck cfg.pool image cfg.migrationMaxLagBytes, .ok (true, reason)⟩

def Synced (image : String) (e : CallEvent) : Prop :=
  ∃ maxLag timeout status, e = ⟨.waitForSync cfg.pool image maxLag timeout, .ok status⟩

def Demoted (image : String) (e : CallEvent) : Prop :=
  e = ⟨.demote cfg.pool image, .ok ()⟩

/-- The promotion call of the image returned, whatever its response says. -/
def Promoted (image : String) (e : CallEvent) : Prop :=
  (∃ response, e = ⟨.promoteRBDImage .dest cfg.pool image, .ok response⟩) ∨
    e = ⟨.promote cfg.pool image false, .ok ()⟩

def ForcePromoted (image : String) (e : CallEvent) : Prop :=
  e = ⟨.promote cfg.pool image true, .ok ()⟩

def VolumeCreated (image : String) (e : CallEvent) : Prop :=
  ∃ sizeGb name volumeId, e = ⟨.createVolumeFromRbd cfg.pool image sizeGb name, .ok volumeId⟩

end Events

def Announced (pfx : String) (e : CallEvent) : Prop :=
  ∃ nextHop, e = ⟨.announce ⟨pfx, nextHop⟩, .ok ()⟩

def Migrated (e : CallEvent) : Prop :=
  ∃ vmId sourceHost destHost job,
    e = ⟨.doMigrate vmId sourceHost destHost, .ok job⟩ ∧ job.migrated = true

def VmFetched (vm : VMDetails) (e : CallEvent) : Prop :=
  ∃ vmId, e = ⟨.getVm vmId, .ok vm⟩

def DemoteReturned (e : CallEvent) : Prop := ∃ pool image, e = ⟨.demote pool image, .ok ()⟩

def PromoteIssued (e : CallEvent) : Prop :=
  (∃ peer pool image, e.call = .promoteRBDImage peer pool image) ∨
    ∃ pool image force, e.call = .promote pool image force

/-- A wait or a demotion raised: the failures inside a demotion loop. -/
def SyncFailed (e : CallEvent) : Prop :=
  (∃ pool image maxLag timeout x, e = ⟨.waitForSync pool image maxLag timeout, .error x⟩) ∨
    ∃ pool image x, e = ⟨.demote pool image, .error x⟩

def DeleteIssued (e : CallEvent) : Prop := ∃ vmId, e.call = .deleteVm vmId

def DoneRecorded (e : CallEvent) : Prop :=
  ∃ task progress, e = ⟨.transition task .done progress, .ok ()⟩

def DoneFailed (e : CallEvent) : Prop :=
  ∃ progress x, e = ⟨.transition .run .done progress, .error x⟩

def FailRecorded (e : CallEvent) : Prop := ∃ error, e = ⟨.fail error, .ok ()⟩

/-! ### The law -/

/-- What the preflight step fixes for the rest of the run. -/
structure Plan where
  vm : Option VMDetails
  images : List String
  prefixes : List String
  hasClient : Bool

def MigrationContext.plan (ctx : MigrationContext) : Plan :=
  ⟨ctx.vm, ctx.rbdImages, MigrationEngine.prefixes ctx, ctx.destGrpcClient.isSome⟩

/-- The volumes of the VM that `get_vm` answered are in the plan and passed the preflight. -/
structure PreflightPassed (cfg : Settings) (p : Plan) (h : Trace) : Prop where
  attached : ∃ vm, p.vm = some vm ∧ Has (VmFetched vm) h ∧
    ∀ volumeId ∈ vm.volumeIds, s!"volume-{volumeId}" ∈ p.images
  checked : ∀ image ∈ p.images, Has (Preflighted cfg image) h

def Call.isPreparation : Call → Bool
  | .transition _ state _ => state.isStep
  | .getVm _ => true
  | .preflightCheck _ _ _ => true
  | _ => false

def Needs (kind : MigrationType) (cfg : Settings) (p : Plan) (pre : Trace) : Call → Prop
  | .transition _ state _ => ¬ Has DoneRecorded pre ∧
      (state.isStep = true ∨ state = .done ∧ Has DeleteIssued pre)
  | .waitForSync _ _ _ _ => ¬ Has PromoteIssued pre
  | .demote pool image => pool = cfg.pool ∧ image ∈ p.images ∧ Has (Synced cfg image) pre ∧
      ¬ Has PromoteIssued pre ∧ (kind = .live → Has Migrated pre)
  | .promoteRBDImage peer pool image => peer = .dest ∧ pool = cfg.pool ∧ p.hasClient = true ∧
      image ∈ p.images ∧ ∀ i ∈ p.images, Has (Demoted cfg i) pre
  | .promote pool image _ => pool = cfg.pool ∧ p.hasClient = false ∧
      image ∈ p.images ∧ ∀ i ∈ p.images, Has (Demoted cfg i) pre
  | .createVolumeFromRbd _ _ _ _ => ∀ i ∈ p.images, Has (Promoted cfg i) pre
  | .announce _ => ∀ i ∈ p.images, Has (Promoted cfg i) pre
  | .withdrawIP _ _ => ∀ pfx ∈ p.prefixes, Has (Announced pfx) pre
  | .doMigrate _ _ _ => kind = .live ∧ ¬ Has PromoteIssued pre
  | .deleteVm _ => ¬ Has DeleteIssued pre ∧ (∀ i ∈ p.images, Has (Promoted cfg i) pre) ∧
      (kind = .cold → ∀ i ∈ p.images, Has (VolumeCreated cfg i) pre) ∧
      (∀ pfx ∈ p.prefixes, Has (Announced pfx) pre) ∧ (kind = .live → Has Migrated pre)
  | _ => True

def Law (kind : MigrationType) (cfg : Settings) (p : Plan) (pre : Trace) (c : Call) : Prop :=
  if c.isForward then
    Clean kind pre ∧ (c.isPreparation = false → PreflightPassed cfg p pre) ∧
      Needs kind cfg p pre c
  else
    match c with
    | .fail _ => (∀ e ∈ pre, e.call.isForward = true) ∧ ¬ Has DoneRecorded pre
    | _ => Has FailRecorded pre

def Armed (s : EngineState) : Prop := .disk ∈ s.rollbacks ∨ .cutover ∈ s.rollbacks

structure Going (kind : MigrationType) (cfg : Settings) (p : Plan) (s : EngineState)
    (h : Trace) : Prop where
  law : Respects (Law kind cfg p) h
  clean : Clean kind h
  plan : s.ctx.plan = p
  attempted : s.attempted = []
  aborted : s.aborted = false
  kept : ¬ Has DeleteIssued h
  undone : ¬ Has DoneRecorded h

structure Stopped (kind : MigrationType) (cfg : Settings) (p : Plan) (s : EngineState)
    (h : Trace) : Prop where
  law : Respects (Law kind cfg p) h
  forward : ∀ e ∈ h, e.call.isForward = true
  plan : s.ctx.plan = p
  attempted : s.attempted = []
  compensable : Has DemoteReturned h → Armed s ∨ Has SyncFailed h
  unarmed : Has SyncFailed h → ¬ Armed s
  deleted : Has DeleteIssued h → Has DoneFailed h
  undone : ¬ Has DoneRecorded h
  escaped : kind = .cold → ¬ Clean kind h

end NovaFederation
