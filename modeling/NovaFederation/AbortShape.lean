import NovaFederation.EngineFrame
import NovaFederation.EventLoop
import NovaFederation.SagaLaw

/-!
# The shape of a run, whatever happens beside it

These facts hold of every await of `run()` for any state that another task may leave behind:
the steps make forward calls only, a reply that escapes makes a step raise before its next
call, and the handlers make no forward call. `Place` and `Rolling` say what a task that waits
inside the `try` body or inside a handler will do next.
-/

namespace NovaFederation
open Coroutine
variable {kind : MigrationType} {cfg : Settings}

/-- The part of the engine object that only registrations and handlers write. -/
def tallies (s : EngineState) : List Rollback × List Rollback := (s.rollbacks, s.attempted)

def Call.isStepping : Call → Bool
  | .getVm _ => false
  | .preflightCheck _ _ _ => false
  | c => c.isForward

def Stepping (c : Call) : Prop := c.isStepping = true

def Escaping (kind : MigrationType) (c : Call) (r : Except PyException c.Reply) : Prop :=
  escapes kind ⟨c, r⟩ = true

def Silent (kind : MigrationType) (c : Call) : Prop := Stepping c ∧ ∀ r, ¬ Escaping kind c r

def Handling (c : Call) : Prop := c.isForward = false ∧ ∀ error, c ≠ .fail error

abbrev Raising {α : Type} (kind : MigrationType) (p : Engine α) : Prop :=
  RaisesOn Stepping (Escaping kind) tallies p

theorem silent_of_swallowed {c : Call} (hf : c.isStepping = true) (hs : c.swallowed = true) :
    Silent kind c := by
  refine ⟨hf, ?_⟩
  rintro (x | v) hr
  · simp [Escaping, escapes, hs] at hr
  · have hno : c.refused kind v = false := by
      cases c <;> simp_all [Call.swallowed, Call.refused]
    simp [Escaping, escapes, hno] at hr

theorem raising_perform {c : Call} (hf : c.isStepping = true)
    (hr : ∀ v, c.refused kind v = false) : Raising kind (await c) := by
  refine RaisesOn.perform (F := Stepping) hf ?_
  intro v hv
  simp [Escaping, escapes, hr v] at hv

theorem raising_swallowed {α : Type} {p : Engine α} (hp : Calls (Silent kind) p) :
    Raising kind p := .of_calls hp

theorem raising_transition (state : MigrationState) (progress : ℚ) :
    Raising kind (MigrationEngine.transition .run state progress) :=
  .bind (.modify _) fun _ => raising_perform rfl fun _ => rfl

theorem raising_promoteAll : Raising kind (MigrationEngine.promoteAll cfg) := by
  refine .bind .read fun s => .forM fun image => .ite ?_ (raising_perform rfl fun _ => rfl)
  exact .bind (raising_perform rfl fun _ => rfl) fun _ => .pure _

theorem silent_withdrawIP {peer : Side} (client : Option (CNFControlStub peer)) (pfx : String) :
    Calls (Silent kind) (CNFControlStub.withdrawIP client pfx) := by
  cases client with
  | none => exact .throw _ _
  | some _ => exact .perform (silent_of_swallowed rfl rfl)

theorem raising_handoff {peer : Side} (prefixes : List String) (nextHop : Option String)
    (client : Option (CNFControlStub peer)) :
    Raising kind (BGPManager.handoff prefixes nextHop client) := by
  refine .bind (.forM fun _ => raising_perform rfl fun _ => rfl) fun _ =>
    .bind (.forM fun pfx => ?_) fun _ => .forM fun _ => raising_perform rfl fun _ => rfl
  apply raising_swallowed
  exact .tryCatch (.bind (silent_withdrawIP client pfx) fun _ => .pure _ _) fun _ => .pure _ _

theorem raising_cleanup (progress : ℚ) : Raising kind (MigrationEngine.cleanup progress) := by
  refine .bind (raising_transition _ _) fun _ => .bind .read fun s => raising_swallowed ?_
  exact .tryCatch (.perform (silent_of_swallowed rfl rfl)) fun _ => .pure _ _

/-! ### The steps -/

namespace ColdMigrationEngine

theorem raising_stepDisk : Raising .cold (stepDisk cfg) := by
  refine .bind (raising_transition _ _) fun _ => .bind .read fun s =>
    .bind (.ite (raising_perform rfl fun _ => rfl) (.pure _)) fun _ => ?_
  refine .bind (.forM fun _ => .bind (raising_perform rfl fun _ => rfl) fun _ => .pure _)
    fun _ => .bind (.forM fun _ => raising_perform rfl fun _ => rfl) fun _ => ?_
  exact .bind (.modify _) fun _ => .bind raising_promoteAll fun _ => raising_transition _ _

theorem raising_stepCutover : Raising .cold (stepCutover cfg) := by
  refine .bind (raising_transition _ _) fun _ => .bind .read fun s => ?_
  cases s.ctx.vm with
  | none => exact .pure _
  | some vm =>
    refine .forM fun image => .bind ?_ fun _ =>
      .bind (raising_perform rfl fun _ => rfl) fun _ => .pure _
    apply raising_swallowed
    unfold lookupVolume
    split
    · exact .tryCatch (.bind (.perform (silent_of_swallowed rfl rfl)) fun _ => .pure _ _)
        fun _ => .pure _ _
    · exact .pure _ _

theorem raising_stepBgp : Raising .cold stepBgp := by
  refine .bind (raising_transition _ _) fun _ => .bind .read fun s => .ite (.pure _) ?_
  exact .bind (raising_handoff _ _ _) fun _ => .modify _

theorem raising_steps : Raising .cold (steps cfg) :=
  .bind raising_stepDisk fun _ => .bind raising_stepCutover fun _ =>
    .bind raising_stepBgp fun _ => .bind (raising_cleanup _) fun _ =>
    .bind (raising_transition _ _) fun _ => .pure _

end ColdMigrationEngine

namespace LiveMigrationEngine

theorem raising_stepDiskSync : Raising .live (stepDiskSync cfg) :=
  .bind (raising_transition _ _) fun _ => .bind .read fun _ =>
    .forM fun _ => .bind (raising_perform rfl fun _ => rfl) fun _ => .pure _

theorem silent_monitorProgress (sourceHost vmId : String) (polls : ℕ) :
    Calls (Silent .live)
      (QEMUMigrationTunnel.monitorProgress sourceHost vmId (progressCb .monitor) polls) := by
  induction polls with
  | zero => exact .pure _ _
  | succ polls ih =>
    refine .bind (.read _) fun _ => .ite (.pure _ _) (.bind ?_ fun _ => ih)
    refine .tryCatch (.bind ?_ fun pct => ?_) fun _ => .pure _ _
    · refine .tryCatch (.bind (.perform (silent_of_swallowed rfl rfl)) fun info => ?_)
        fun _ => .pure _ _
      cases info with
      | none => exact .pure _ _
      | some info => exact .ite (.pure _ _) (.pure _ _)
    · exact .bind (.modify _ _) fun _ => .perform (silent_of_swallowed rfl rfl)

/-- An exception of the migration thread is raised when the tunnel has the job's outcome. -/
theorem raising_tunnelRun (vmId sourceHost destHost : String) :
    Raising .live (QEMUMigrationTunnel.run vmId sourceHost destHost (progressCb .monitor)
      (progressCb .run)) := by
  refine .bind (raising_swallowed ?_) fun polls =>
    .bind (raising_swallowed (silent_monitorProgress _ _ _)) fun _ => .perform_bind rfl ?_ ?_
  · exact .tryCatch (.perform (silent_of_swallowed rfl rfl)) fun _ => .pure _ _
  · intro job hjob
    have hsome : job.raised.isSome = true := by
      simpa [Escaping, escapes, Call.refused] using hjob
    obtain ⟨e, he⟩ := Option.isSome_iff_exists.1 hsome
    rw [he]
    exact .throw _ _
  · intro job
    cases job.raised with
    | none => exact raising_transition _ _
    | some e => exact .throw _

theorem raising_stepMemory : Raising .live stepMemory := by
  refine .bind (raising_transition _ _) fun _ => .bind .read fun s => ?_
  cases s.ctx.vm with
  | none => exact .pure _
  | some vm =>
    dsimp only
    split
    · exact .throw _
    · exact .throw _
    · exact .bind (.modify _) fun _ => raising_tunnelRun _ _ _

theorem raising_stepCutover : Raising .live (stepCutover cfg) := by
  refine .bind (raising_transition _ _) fun _ => .bind .read fun s => .bind (.forM fun _ => ?_)
    fun _ => .bind (.modify _) fun _ => raising_promoteAll
  exact .bind (raising_perform rfl fun _ => rfl) fun _ => raising_perform rfl fun _ => rfl

theorem raising_stepBgp : Raising .live stepBgp :=
  .bind (raising_transition _ _) fun _ => .bind .read fun _ =>
    .ite (.pure _) (raising_handoff _ _ _)

theorem raising_steps : Raising .live (steps cfg) :=
  .bind raising_stepDiskSync fun _ => .bind raising_stepMemory fun _ =>
    .bind raising_stepCutover fun _ => .bind raising_stepBgp fun _ =>
    .bind (raising_cleanup _) fun _ => .bind (raising_transition _ _) fun _ => .pure _

end LiveMigrationEngine

/-! ### The handlers -/

theorem handling_forcePromoteAll : Calls Handling (MigrationEngine.forcePromoteAll cfg) := by
  refine .bind (.read _) fun s => .forM fun image _ => .tryCatch (.perform ?_) fun _ => .pure _ _
  exact ⟨rfl, by simp⟩

theorem handling_announceIP {peer : Side} (client : Option (CNFControlStub peer)) (pfx : String) :
    Calls Handling (CNFControlStub.announceIP client pfx) := by
  cases client with
  | none => exact .throw _ _
  | some _ => exact .perform ⟨rfl, by simp⟩

theorem handling_invoke (rb : Rollback) : Calls Handling (MigrationEngine.invoke cfg rb) := by
  cases rb with
  | disk => exact handling_forcePromoteAll
  | cutover => exact handling_forcePromoteAll
  | bgp prefixes =>
    refine .bind (.read _) fun s => .forM fun pfx _ => .bind (.perform ⟨rfl, by simp⟩) fun _ => ?_
    exact .tryCatch (.bind (handling_announceIP _ pfx) fun _ => .pure _ _) fun _ => .pure _ _
  | tunnelAbort vmId sourceHost =>
    refine .bind (.modify _ _) fun _ => .tryCatch (.perform ⟨rfl, by simp⟩) fun _ => .pure _ _

end NovaFederation
