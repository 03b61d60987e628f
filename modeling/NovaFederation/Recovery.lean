import NovaFederation.Clusters

/-!
# Failures and the handlers

When a step raises, everything hangs on one transaction: if the failure can be recorded, every
registered handler is called once, newest first; if not, none is. After the source VM has been
deleted the same branch is still armed, for the transition to `done` can raise.
-/

namespace NovaFederation
open History Coroutine
variable {kind : MigrationType} {cfg : Settings} {ctx : MigrationContext} {O : World}
  {p : Plan} {h : Trace}

/-- When a step raised, the handlers registered by then have been called, each one once and
the newest first, before `run()` ended. -/
def RollbacksComplete (kind : MigrationType) (cfg : Settings) (ctx : MigrationContext)
    (O : World) : Prop :=
  ∀ e s₀ h₀, BodyRaises kind cfg ctx O e s₀ h₀ →
    (kind.migrate cfg ctx O).state.attempted = s₀.rollbacks.reverse

def FailureRecordable (kind : MigrationType) (cfg : Settings) (ctx : MigrationContext)
    (O : World) : Prop :=
  ∀ e s₀ h₀, BodyRaises kind cfg ctx O e s₀ h₀ →
    (O h₀ (.fail e.message)).isOk = true ∨ s₀.rollbacks = []

theorem rollbacks_complete_iff (kind : MigrationType) (cfg : Settings) (ctx : MigrationContext)
    (O : World) :
    RollbacksComplete kind cfg ctx O ↔ FailureRecordable kind cfg ctx O := by
  constructor
  · intro hc e s₀ h₀ hb
    have hatt := hc e s₀ h₀ hb
    rcases hb.ends with ⟨hO, -, -⟩ | ⟨x, -, hun⟩
    · rw [hO]
      exact .inl rfl
    · rw [hun.attempted] at hatt
      exact .inr (List.reverse_eq_nil_iff.1 hatt.symm)
  · intro hf e s₀ h₀ hb
    rcases hb.ends with ⟨-, -, hrb⟩ | ⟨x, hO, hun⟩
    · rw [hrb.attempted, hrb.rollbacks]
    · rw [hun.attempted]
      rcases hf e s₀ h₀ hb with hok | hnil
      · rw [hO] at hok
        cases hok
      · rw [hnil]
        rfl

/-- The destination is out of reach, and so is the database when the failure is recorded. -/
def databaseLost : World
  | _, .fail _ => .error ⟨.other, "connection refused"⟩
  | _, .promoteRBDImage _ _ _ => .error ⟨.other, "unavailable"⟩
  | h, c => cooperative twoVolumes h c

theorem rollbacks_skipped : ¬ RollbacksComplete .cold settings (connected .cold) databaseLost := by
  intro hc
  have hatt := hc ⟨.other, "unavailable"⟩
    (Coroutine.run databaseLost (MigrationType.cold.body settings)
      (EngineState.init (connected .cold))).2.1
    (Coroutine.run databaseLost (MigrationType.cold.body settings)
      (EngineState.init (connected .cold))).2.2 rfl
  revert hatt
  decide

/-! ### The point of no return -/

/-- Once the source VM is deleted, no handler is called and no failure is reported. -/
def PointOfNoReturn (run : Run) : Prop :=
  Has VmDeleted run.trace →
    run.state.attempted = [] ∧ run.result ≠ .ok false ∧ rowState run.trace ≠ .failed

/-- The VM is gone, the last transition raises, and the failure is recorded. -/
def ReportedLate (run : Run) : Prop :=
  Has VmDeleted run.trace ∧ Has DoneFailed run.trace ∧ Has FailRecorded run.trace

theorem VmDeleted.issued {e : CallEvent} (he : VmDeleted e) : DeleteIssued e := by
  obtain ⟨vmId, rfl⟩ := he
  exact ⟨vmId, rfl⟩

theorem rowState_ne_failed (hr : Respects (Law kind cfg p) h)
    (hf : ∀ e ∈ h, e.call.isForward = true) : rowState h ≠ .failed := by
  induction h using List.reverseRecOn with
  | nil => simp [rowState]
  | append_singleton h e ih =>
    obtain ⟨hr, hl⟩ := respects_snoc.1 hr
    rw [rowState_snoc]
    unfold rowApply
    split
    · obtain ⟨-, -, -, hs⟩ := (law_forward rfl).1 hl
      rintro rfl
      rcases hs with hs | ⟨hs, -⟩
      · cases hs
      · cases hs
    · have hfw := hf _ (List.mem_append_right _ (List.mem_singleton.2 rfl))
      cases hfw
    · exact ih hr fun a ha => hf a (List.mem_append_left _ ha)

theorem RolledBack.gone {error : String} {s₀ s : EngineState} {h₀ : Trace}
    (hb : RolledBack kind cfg error s₀ h₀ s h) (hg : Has VmDeleted h) : Has VmDeleted h₀ := by
  obtain ⟨e, he, hv⟩ := hg
  refine ⟨e, hb.forward_mem he ?_, hv⟩
  obtain ⟨vmId, rfl⟩ := hv
  rfl

theorem Unrecorded.row_ne_failed {error : String} {s₀ s : EngineState} {h₀ : Trace}
    (hun : Unrecorded kind cfg error s₀ h₀ s h) : rowState h ≠ .failed := by
  obtain ⟨x, rfl⟩ := hun.tail
  rw [rowState_snoc]
  exact rowState_ne_failed hun.stopped.law hun.stopped.forward

theorem Unrecorded.not_failRecorded {error : String} {s₀ s : EngineState} {h₀ : Trace}
    (hun : Unrecorded kind cfg error s₀ h₀ s h) : ¬ Has FailRecorded h := by
  obtain ⟨x, rfl⟩ := hun.tail
  rw [has_snoc]
  intro hq
  rcases hq with ⟨f, hf, error', rfl⟩ | ⟨error', hf⟩
  · have hfw := hun.stopped.forward _ hf
    cases hfw
  · cases hf

theorem RolledBack.failRecorded {error : String} {s₀ s : EngineState} {h₀ : Trace}
    (hb : RolledBack kind cfg error s₀ h₀ s h) : Has FailRecorded h := by
  obtain ⟨t, rfl, -⟩ := hb.tail
  exact ⟨_, List.mem_append_right _ List.mem_cons_self, error, rfl⟩

theorem RolledBack.doneFailed {error : String} {s₀ s : EngineState} {h₀ : Trace}
    (hb : RolledBack kind cfg error s₀ h₀ s h) (hg : Has VmDeleted h) : Has DoneFailed h := by
  have hdel := hb.stopped.deleted ((hb.gone hg).imp fun _ he => ⟨he.1, he.2.issued⟩)
  obtain ⟨t, rfl, -⟩ := hb.tail
  exact hdel.append _

theorem Done.not_doneFailed {s : EngineState} (hd : Done kind cfg p s h) :
    ¬ Has DoneFailed h := by
  intro hq
  obtain ⟨f, hf, progress, x, rfl⟩ := hq
  have hesc := (hd.clean _ hf).2
  simp [escapes, Call.swallowed] at hesc

theorem Done.row {s : EngineState} (hd : Done kind cfg p s h) : rowState h = .done := by
  obtain ⟨pre, hpre⟩ := hd.recorded
  rw [hpre, rowState_snoc]
  rfl

theorem point_of_no_return_iff (kind : MigrationType) (cfg : Settings) (ctx : MigrationContext)
    (O : World) :
    PointOfNoReturn (kind.migrate cfg ctx O) ↔ ¬ ReportedLate (kind.migrate cfg ctx O) := by
  have hrep := report kind cfg ctx O
  generalize kind.migrate cfg ctx O = run at hrep
  obtain ⟨result, s, h⟩ := run
  dsimp only at hrep
  simp only [PointOfNoReturn, ReportedLate]
  rcases result with x | _ | _
  · obtain ⟨error, s₀, h₀, hun⟩ := hrep
    exact iff_of_true (fun _ => ⟨hun.attempted, by simp, hun.row_ne_failed⟩)
      fun hlate => hun.not_failRecorded hlate.2.2
  · obtain ⟨error, s₀, h₀, hb⟩ := hrep
    constructor
    · intro hp hq
      exact (hp hq.1).2.1 rfl
    · intro hlate hg
      exact absurd ⟨hg, hb.doneFailed hg, hb.failRecorded⟩ hlate
  · have hd : Done kind cfg s.ctx.plan s h := Finished.done hrep
    refine iff_of_true (fun _ => ⟨hd.attempted, by simp, ?_⟩)
      fun hlate => hd.not_doneFailed hlate.2.1
    rw [hd.row]
    simp

def lastTransitionRaises : World
  | h, .transition task state progress =>
    if state = .done then .error ⟨.other, "connection refused"⟩
    else cooperative twoVolumes h (.transition task state progress)
  | h, c => cooperative twoVolumes h c

theorem rolled_back_after_deletion :
    ¬ PointOfNoReturn
      (MigrationType.live.migrate settings (connected .live) lastTransitionRaises) := by
  intro hp
  exact (hp (by decide +kernel)).2.1 (by decide +kernel)

end NovaFederation
