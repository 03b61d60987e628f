import NovaFederation.MigrationEngine

/-!
# What the engines do not write

The client of the destination is the one that the context was created with, the steps call no
handler, and a handler writes nothing but the flag of the tunnel. All of this holds whatever
other tasks do while the engine waits.
-/

namespace NovaFederation
open Coroutine
variable {δ : Type} {f : EngineState → δ} {cfg : Settings}

/-- What no step of a run writes. -/
def steady (s : EngineState) : Option (CNFControlStub .dest) × Bool × List Rollback :=
  (s.ctx.destGrpcClient, s.aborted, s.attempted)

def fixed (s : EngineState) : Option (CNFControlStub .dest) := s.ctx.destGrpcClient

def settled (s : EngineState) : EngineState := { s with cancelled := false }

def RecordBlind (f : EngineState → δ) : Prop :=
  ∀ s state progress, f { s with ctx := { s.ctx with state, progress } } = f s

/-- A view in which the registrations of the steps do not show either, but that of the routes. -/
structure Blind (f : EngineState → δ) : Prop where
  record : RecordBlind f
  register : ∀ s fn, (∀ prefixes, fn ≠ .bgp prefixes) →
    f { s with rollbacks := s.rollbacks ++ [fn] } = f s

def RouteBlind (f : EngineState → δ) : Prop :=
  ∀ s prefixes, f { s with rollbacks := s.rollbacks ++ [.bgp prefixes] } = f s

/-- A view in which the findings of the preflight do not show either. -/
structure Oblivious (f : EngineState → δ) : Prop extends Blind f where
  found : ∀ s vm rbdImages vmIps, f { s with ctx := { s.ctx with vm, rbdImages, vmIps } } = f s

theorem oblivious_steady : Oblivious steady :=
  ⟨⟨fun _ _ _ => rfl, fun _ _ _ => rfl⟩, fun _ _ _ _ => rfl⟩

theorem routeBlind_steady : RouteBlind steady := fun _ _ => rfl

theorem keeps_transition (hf : RecordBlind f) (task : Task) (state : MigrationState)
    (progress : ℚ) : Keeps f (MigrationEngine.transition task state progress) :=
  .bind (.modify fun s => hf s state progress) fun _ => .perform _ _

theorem keeps_registerRollback (hf : Blind f) {fn : Rollback}
    (hfn : ∀ prefixes, fn ≠ .bgp prefixes) : Keeps f (MigrationEngine.registerRollback fn) :=
  .modify fun s => hf.register s fn hfn

theorem keeps_forcePromoteAll : Keeps f (MigrationEngine.forcePromoteAll cfg) := by
  refine .bind (.read _) fun _ => .forM fun _ => .tryCatch (.perform _ _) fun _ => .pure _ _

theorem keeps_promoteAll : Keeps f (MigrationEngine.promoteAll cfg) := by
  refine .bind (.read _) fun _ => .forM fun _ => .ite ?_ (.perform _ _)
  exact .bind (.perform _ _) fun _ => .pure _ _

theorem keeps_withdrawIP {peer : Side} (client : Option (CNFControlStub peer)) (pfx : String) :
    Keeps f (CNFControlStub.withdrawIP client pfx) := by
  cases client with
  | none => exact .throw _ _
  | some _ => exact .perform _ _

theorem keeps_announceIP {peer : Side} (client : Option (CNFControlStub peer)) (pfx : String) :
    Keeps f (CNFControlStub.announceIP client pfx) := by
  cases client with
  | none => exact .throw _ _
  | some _ => exact .perform _ _

theorem keeps_handoff {peer : Side} (prefixes : List String) (nextHop : Option String)
    (client : Option (CNFControlStub peer)) :
    Keeps f (BGPManager.handoff prefixes nextHop client) := by
  refine .bind (.forM fun _ => .perform _ _) fun _ => .bind (.forM fun pfx => ?_) fun _ =>
    .forM fun _ => .perform _ _
  exact .tryCatch (.bind (keeps_withdrawIP client pfx) fun _ => .pure _ _) fun _ => .pure _ _

theorem keeps_bgpRollback {peer : Side} (prefixes : List String)
    (client : Option (CNFControlStub peer)) :
    Keeps f (BGPManager.rollback prefixes client) := by
  refine .forM fun pfx => .bind (.perform _ _) fun _ => ?_
  exact .tryCatch (.bind (keeps_announceIP client pfx) fun _ => .pure _ _) fun _ => .pure _ _

theorem keeps_tunnelAbort (vmId sourceHost : String) :
    Keeps settled (QEMUMigrationTunnel.abort vmId sourceHost) :=
  .bind (.modify fun _ => rfl) fun _ => .tryCatch (.perform _ _) fun _ => .pure _ _

theorem keeps_invoke (rb : Rollback) : Keeps settled (MigrationEngine.invoke cfg rb) := by
  cases rb with
  | disk => exact keeps_forcePromoteAll
  | cutover => exact keeps_forcePromoteAll
  | bgp prefixes => exact .bind (.read _) fun _ => keeps_bgpRollback _ _
  | tunnelAbort vmId sourceHost => exact keeps_tunnelAbort _ _

theorem keeps_runRollbacks : Keeps fixed (MigrationEngine.runRollbacks cfg) := by
  refine .bind (.read _) fun _ => .forM fun rb => .bind (.modify fun _ => rfl) fun _ => ?_
  exact .tryCatch ((keeps_invoke rb).comp (·.ctx.destGrpcClient)) fun _ => .pure _ _

theorem keeps_fail (error : String) : Keeps fixed (MigrationEngine.fail error) :=
  .bind (.modify fun _ => rfl) fun _ => .perform _ _

theorem keeps_compensate (e : PyException) : Keeps fixed (MigrationEngine.compensate cfg e) :=
  .bind (keeps_fail _) fun _ => .bind keeps_runRollbacks fun _ => .pure _ _

theorem keeps_preflight (hf : Oblivious f) (admits : String → Bool)
    (refusal : String → VMDetails → String) :
    Keeps f (MigrationEngine.preflight cfg admits refusal) := by
  refine .bind (keeps_transition hf.record _ _ _) fun _ => .bind (.read _) fun _ =>
    .bind (.perform _ _) fun vm => .bind (.modify fun s => hf.found s (some vm) _ _) fun _ =>
    .ite ?_ (.throw _ _)
  refine .bind (.modify fun s => hf.found s _ _ _) fun _ => .bind (.read _) fun _ =>
    .forM fun _ => ?_
  exact .bind (.perform _ _) fun _ => .ite (.pure _ _) (.throw _ _)

theorem keeps_cleanup (hf : RecordBlind f) (progress : ℚ) :
    Keeps f (MigrationEngine.cleanup progress) :=
  .bind (keeps_transition hf _ _ _) fun _ => .bind (.read _) fun _ =>
    .tryCatch (.perform _ _) fun _ => .pure _ _

/-- What comes after the last step that differs between the engines. -/
theorem keeps_ending (hf : RecordBlind f) (progress : ℚ) :
    Keeps f (MigrationEngine.cleanup progress >>= fun _ =>
      MigrationEngine.transition .run .done 100 >>= fun _ => (pure true : Engine Bool)) :=
  .bind (keeps_cleanup hf _) fun _ => .bind (keeps_transition hf _ _ _) fun _ => .pure _ _

theorem keeps_monitorProgress (hf : RecordBlind f) (sourceHost vmId : String) (polls : ℕ) :
    Keeps f (QEMUMigrationTunnel.monitorProgress sourceHost vmId
      (LiveMigrationEngine.progressCb .monitor) polls) := by
  induction polls with
  | zero => exact .pure _ _
  | succ polls ih =>
    refine .bind (.read _) fun _ => .ite (.pure _ _) (.bind ?_ fun _ => ih)
    refine .tryCatch (.bind ?_ fun _ => keeps_transition hf _ _ _) fun _ => .pure _ _
    refine .tryCatch (.bind (.perform _ _) fun info => ?_) fun _ => .pure _ _
    cases info with
    | none => exact .pure _ _
    | some info => exact .ite (.pure _ _) (.pure _ _)

theorem keeps_tunnelRun (hf : RecordBlind f) (vmId sourceHost destHost : String) :
    Keeps f (QEMUMigrationTunnel.run vmId sourceHost destHost
      (LiveMigrationEngine.progressCb .monitor) (LiveMigrationEngine.progressCb .run)) := by
  refine .bind (.tryCatch (.perform _ _) fun _ => .pure _ _) fun _ =>
    .bind (keeps_monitorProgress hf _ _ _) fun _ => .bind (.perform _ _) fun job => ?_
  cases job.raised with
  | none =>
    dsimp only
    exact keeps_transition hf _ _ _
  | some e =>
    dsimp only
    exact .throw _ _

namespace ColdMigrationEngine

theorem keeps_stepDisk (hf : Blind f) : Keeps f (stepDisk cfg) := by
  refine .bind (keeps_transition hf.record _ _ _) fun _ => .bind (.read _) fun _ =>
    .bind (.ite (.perform _ _) (.pure _ _)) fun _ => ?_
  refine .bind (.forM fun _ => .bind (.perform _ _) fun _ => .pure _ _) fun _ =>
    .bind (.forM fun _ => .perform _ _) fun _ => ?_
  exact .bind (keeps_registerRollback hf nofun) fun _ => .bind keeps_promoteAll fun _ =>
    keeps_transition hf.record _ _ _

theorem keeps_lookupVolume (vm : VMDetails) (image : String) :
    Keeps f (lookupVolume vm image) := by
  unfold lookupVolume
  split
  · exact .tryCatch (.bind (.perform _ _) fun _ => .pure _ _) fun _ => .pure _ _
  · exact .pure _ _

theorem keeps_stepCutover (hf : RecordBlind f) : Keeps f (stepCutover cfg) := by
  refine .bind (keeps_transition hf _ _ _) fun _ => .bind (.read _) fun s => ?_
  cases s.ctx.vm with
  | none => exact .pure _ _
  | some vm =>
    refine .forM fun image => .bind (keeps_lookupVolume vm image) fun _ => ?_
    exact .bind (.perform _ _) fun _ => .pure _ _

theorem keeps_stepBgp (hf : Blind f) (hr : RouteBlind f) : Keeps f stepBgp := by
  refine .bind (keeps_transition hf.record _ _ _) fun _ => .bind (.read _) fun _ =>
    .ite (.pure _ _) ?_
  exact .bind (keeps_handoff _ _ _) fun _ => Keeps.modify fun s => hr s _

theorem keeps_steps (hf : Blind f) (hr : RouteBlind f) : Keeps f (steps cfg) :=
  .bind (keeps_stepDisk hf) fun _ => .bind (keeps_stepCutover hf.record) fun _ =>
    .bind (keeps_stepBgp hf hr) fun _ => keeps_ending hf.record _

end ColdMigrationEngine

namespace LiveMigrationEngine

theorem keeps_stepDiskSync (hf : RecordBlind f) : Keeps f (stepDiskSync cfg) :=
  .bind (keeps_transition hf _ _ _) fun _ => .bind (.read _) fun _ =>
    .forM fun _ => .bind (.perform _ _) fun _ => .pure _ _

theorem keeps_stepMemory (hf : Blind f) : Keeps f stepMemory := by
  refine .bind (keeps_transition hf.record _ _ _) fun _ => .bind (.read _) fun s => ?_
  cases s.ctx.vm with
  | none => exact .pure _ _
  | some vm =>
    dsimp only
    split
    · exact .throw _ _
    · exact .throw _ _
    · exact .bind (keeps_registerRollback hf nofun) fun _ => keeps_tunnelRun hf.record _ _ _

theorem keeps_stepCutover (hf : Blind f) : Keeps f (stepCutover cfg) := by
  refine .bind (keeps_transition hf.record _ _ _) fun _ => .bind (.read _) fun _ =>
    .bind (.forM fun _ => .bind (.perform _ _) fun _ => .perform _ _) fun _ => ?_
  exact .bind (keeps_registerRollback hf nofun) fun _ => keeps_promoteAll

theorem keeps_stepBgp (hf : RecordBlind f) : Keeps f stepBgp :=
  .bind (keeps_transition hf _ _ _) fun _ => .bind (.read _) fun _ =>
    .ite (.pure _ _) (keeps_handoff _ _ _)

theorem keeps_steps (hf : Blind f) : Keeps f (steps cfg) :=
  .bind (keeps_stepDiskSync hf.record) fun _ => .bind (keeps_stepMemory hf) fun _ =>
    .bind (keeps_stepCutover hf) fun _ => .bind (keeps_stepBgp hf.record) fun _ =>
    keeps_ending hf.record _

end LiveMigrationEngine

theorem keeps_body (hf : Oblivious f) (hr : RouteBlind f) (kind : MigrationType)
    (cfg : Settings) : Keeps f (kind.body cfg) := by
  cases kind with
  | cold =>
    exact .bind (keeps_preflight hf _ _) fun _ => .bind (.read _) fun _ =>
      .ite (.pure _ _) (ColdMigrationEngine.keeps_steps hf.toBlind hr)
  | live =>
    exact .bind (keeps_preflight hf _ _) fun _ => .bind (.read _) fun _ =>
      .ite (.pure _ _) (LiveMigrationEngine.keeps_steps hf.toBlind)

theorem keeps_run (kind : MigrationType) (cfg : Settings) : Keeps fixed (kind.run cfg) := by
  rw [MigrationType.run_eq]
  exact .tryCatch ((keeps_body oblivious_steady routeBlind_steady kind cfg).comp Prod.fst)
    keeps_compensate

end NovaFederation
