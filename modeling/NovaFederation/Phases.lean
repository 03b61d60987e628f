import NovaFederation.MigrationEngine
import NovaFederation.EventLoop

/-!
# The calls of each step

A step begins with the transition to its state. `Call.within` lists what it may await after
that, whatever other tasks do; the calls of the rollback handlers are within no step.
-/

namespace NovaFederation
open Coroutine MigrationEngine
variable {cfg : Settings} {st : MigrationState}

def Call.within (st : MigrationState) : Call → Bool
  | .transition task state _ => state = st ∧ (task = .run ∨ st = .memory)
  | .getVm _ => st = .preflight
  | .preflightCheck _ _ _ => st = .preflight
  | .getMirrorStatus _ _ => st = .disk
  | .stopVm _ => st = .disk
  | .waitForSync _ _ _ _ => st = .disk ∨ st = .cutover
  | .demote _ _ => st = .disk ∨ st = .cutover
  | .promoteRBDImage _ _ _ => st = .disk ∨ st = .cutover
  | .promote _ _ force => force = false ∧ (st = .disk ∨ st = .cutover)
  | .monitorPolls => st = .memory
  | .jobInfo _ _ => st = .memory
  | .doMigrate _ _ _ => st = .memory
  | .getVolume _ => st = .cutover
  | .createVolumeFromRbd _ _ _ _ => st = .cutover
  | .announce _ => st = .bgp
  | .withdrawIP _ _ => st = .bgp
  | .waitConvergence _ => st = .bgp
  | .deleteVm _ => st = .cleanup
  | _ => false

/-- The calls of the cold cutover, which creates the volumes. -/
def Call.attaches : Call → Bool
  | .transition task state _ => task = .run ∧ state = .cutover
  | .getVolume _ => true
  | .createVolumeFromRbd _ _ _ _ => true
  | _ => false

def Within (st : MigrationState) (c : Call) : Prop := c.within st = true

structure IsStep (st : MigrationState) (step : Engine Unit) : Prop where
  begins : ∃ progress rest, step = transition .run st progress >>= fun _ => rest
  calls : Calls (Within st) step

theorem calls_transition (progress : ℚ) :
    Calls (Within st) (transition .run st progress) := by
  refine .bind (.modify _ _) fun _ => .perform ?_
  simp [Within, Call.within]

theorem calls_progressCb (task : Task) (pct : ℚ) :
    Calls (Within .memory) (LiveMigrationEngine.progressCb task pct) := by
  refine .bind (.modify _ _) fun _ => .perform ?_
  simp [Within, Call.within]

theorem calls_promoteAll (hst : st = .disk ∨ st = .cutover) :
    Calls (Within st) (promoteAll cfg) := by
  refine .bind (.read _) fun _ => .forM fun image _ => .ite ?_ (.perform ?_)
  · refine .bind (.perform ?_) fun _ => .pure _ _
    simp [Within, Call.within, hst]
  · simp [Within, Call.within, hst]

theorem calls_withdrawIP {peer : Side} (client : Option (CNFControlStub peer)) (pfx : String) :
    Calls (Within .bgp) (CNFControlStub.withdrawIP client pfx) := by
  cases client with
  | none => exact .throw _ _
  | some _ => exact .perform rfl

theorem calls_handoff {peer : Side} (prefixes : List String) (nextHop : Option String)
    (client : Option (CNFControlStub peer)) :
    Calls (Within .bgp) (BGPManager.handoff prefixes nextHop client) := by
  refine .bind (.forM fun _ _ => .perform rfl) fun _ => .bind (.forM fun pfx _ => ?_) fun _ =>
    .forM fun _ _ => .perform rfl
  exact .tryCatch (.bind (calls_withdrawIP client pfx) fun _ => .pure _ _) fun _ => .pure _ _

theorem isStep_preflight (admits : String → Bool) (refusal : String → VMDetails → String) :
    IsStep .preflight (preflight cfg admits refusal) := by
  refine ⟨⟨_, _, rfl⟩, ?_⟩
  refine .bind (calls_transition _) fun _ => .bind (.read _) fun _ =>
    .bind (.perform rfl) fun _ => .bind (.modify _ _) fun _ => .ite ?_ (.throw _ _)
  refine .bind (.modify _ _) fun _ => .bind (.read _) fun _ => .forM fun _ _ => ?_
  exact .bind (.perform rfl) fun _ => .ite (.pure _ _) (.throw _ _)

theorem isStep_cleanup (progress : ℚ) : IsStep .cleanup (cleanup progress) := by
  refine ⟨⟨_, _, rfl⟩, ?_⟩
  exact .bind (calls_transition _) fun _ => .bind (.read _) fun _ =>
    .tryCatch (.perform rfl) fun _ => .pure _ _

namespace ColdMigrationEngine

theorem isStep_stepDisk : IsStep .disk (stepDisk cfg) := by
  refine ⟨⟨_, _, rfl⟩, ?_⟩
  refine .bind (calls_transition _) fun _ => .bind (.read _) fun _ =>
    .bind (.ite (.perform rfl) (.pure _ _)) fun _ => ?_
  refine .bind (.forM fun _ _ => .bind (.perform rfl) fun _ => .pure _ _) fun _ =>
    .bind (.forM fun _ _ => .perform rfl) fun _ => ?_
  exact .bind (.modify _ _) fun _ => .bind (calls_promoteAll (.inl rfl)) fun _ =>
    calls_transition _

theorem attaching_lookupVolume (vm : VMDetails) (image : String) :
    Calls (fun c => c.attaches = true) (lookupVolume vm image) := by
  unfold lookupVolume
  split
  · exact .tryCatch (.bind (.perform rfl) fun _ => .pure _ _) fun _ => .pure _ _
  · exact .pure _ _

theorem attaching_stepCutover : Calls (fun c => c.attaches = true) (stepCutover cfg) := by
  refine .bind (.bind (.modify _ _) fun _ => .perform rfl) fun _ => .bind (.read _) fun s => ?_
  cases s.ctx.vm with
  | none => exact .pure _ _
  | some vm =>
    refine .forM fun image _ => .bind (attaching_lookupVolume vm image) fun _ => ?_
    exact .bind (.perform rfl) fun _ => .pure _ _

theorem isStep_stepCutover : IsStep .cutover (stepCutover cfg) := by
  refine ⟨⟨_, _, rfl⟩, attaching_stepCutover.mono fun c hc => ?_⟩
  cases c <;> simp_all [Within, Call.within, Call.attaches]

theorem isStep_stepBgp : IsStep .bgp stepBgp := by
  refine ⟨⟨_, _, rfl⟩, ?_⟩
  refine .bind (calls_transition _) fun _ => .bind (.read _) fun _ => .ite (.pure _ _) ?_
  exact .bind (calls_handoff _ _ _) fun _ => .modify _ _

end ColdMigrationEngine

namespace LiveMigrationEngine

theorem isStep_stepDiskSync : IsStep .disk (stepDiskSync cfg) := by
  refine ⟨⟨_, _, rfl⟩, ?_⟩
  exact .bind (calls_transition _) fun _ => .bind (.read _) fun _ =>
    .forM fun _ _ => .bind (.perform rfl) fun _ => .pure _ _

theorem calls_monitorProgress (sourceHost vmId : String) (polls : ℕ) :
    Calls (Within .memory) (QEMUMigrationTunnel.monitorProgress sourceHost vmId
      (progressCb .monitor) polls) := by
  induction polls with
  | zero => exact .pure _ _
  | succ polls ih =>
    refine .bind (.read _) fun _ => .ite (.pure _ _) (.bind ?_ fun _ => ih)
    refine .tryCatch (.bind ?_ fun _ => calls_progressCb _ _) fun _ => .pure _ _
    refine .tryCatch (.bind (.perform rfl) fun info => ?_) fun _ => .pure _ _
    cases info with
    | none => exact .pure _ _
    | some info => exact .ite (.pure _ _) (.pure _ _)

theorem calls_tunnelRun (vmId sourceHost destHost : String) :
    Calls (Within .memory) (QEMUMigrationTunnel.run vmId sourceHost destHost
      (progressCb .monitor) (progressCb .run)) := by
  refine .bind (.tryCatch (.perform rfl) fun _ => .pure _ _) fun _ =>
    .bind (calls_monitorProgress _ _ _) fun _ => .bind (.perform rfl) fun job => ?_
  cases job.raised with
  | none => exact calls_progressCb _ _
  | some e => exact .throw _ _

theorem isStep_stepMemory : IsStep .memory stepMemory := by
  refine ⟨⟨_, _, rfl⟩, ?_⟩
  refine .bind (calls_transition _) fun _ => .bind (.read _) fun s => ?_
  cases s.ctx.vm with
  | none => exact .pure _ _
  | some vm =>
    dsimp only
    split
    · exact .throw _ _
    · exact .throw _ _
    · exact .bind (.modify _ _) fun _ => calls_tunnelRun _ _ _

theorem isStep_stepCutover : IsStep .cutover (stepCutover cfg) := by
  refine ⟨⟨_, _, rfl⟩, ?_⟩
  refine .bind (calls_transition _) fun _ => .bind (.read _) fun _ =>
    .bind (.forM fun _ _ => .bind (.perform rfl) fun _ => .perform rfl) fun _ => ?_
  exact .bind (.modify _ _) fun _ => calls_promoteAll (.inr rfl)

theorem isStep_stepBgp : IsStep .bgp stepBgp := by
  refine ⟨⟨_, _, rfl⟩, ?_⟩
  exact .bind (calls_transition _) fun _ => .bind (.read _) fun _ =>
    .ite (.pure _ _) (calls_handoff _ _ _)

end LiveMigrationEngine

end NovaFederation
