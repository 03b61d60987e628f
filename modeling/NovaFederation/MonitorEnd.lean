import NovaFederation.EngineFrame
import NovaFederation.Obligations
import NovaFederation.Phases
import NovaFederation.SagaLaw

/-!
# When the progress monitor ends

The tunnel lets its monitor wake up as often as the reply to the first call says, unless the
tunnel has been cancelled. `monitorEnds` says of a reply to a call of the monitor whether the
next call is the one that waits for the migration thread, whatever `abort` does meanwhile.
-/

namespace NovaFederation
open Coroutine MigrationEngine
variable {kind : MigrationType} {cfg : Settings} {s : EngineState}

/-- The calls of the progress monitor, which runs beside the migration thread. -/
def Call.isMonitor : Call → Bool
  | .transition .monitor _ _ => true
  | .monitorPolls => true
  | .jobInfo _ _ => true
  | _ => false

structure Wakes where
  polls : ℕ := 0
  infos : ℕ := 0

def Wakes.add (n : Wakes) : CallEvent → Wakes
  | ⟨.monitorPolls, .ok polls⟩ => { n with polls }
  | ⟨.jobInfo _ _, _⟩ => { n with infos := n.infos + 1 }
  | _ => n

def wakes (h : Trace) : Wakes := h.foldl Wakes.add {}

theorem wakes_snoc (h : Trace) (e : CallEvent) : wakes (h ++ [e]) = (wakes h).add e := by
  rw [wakes, List.foldl_append]
  rfl

/-- The monitor has been cancelled, or has asked as often as it is to wake up. -/
def monitorEnds (cancelled : Bool) (n : Wakes) (e : CallEvent) : Bool :=
  match e.call with
  | .monitorPolls => cancelled || (n.add e).infos == (n.add e).polls
  | .transition .monitor _ _ => cancelled || n.infos == n.polls
  | _ => false

def awaitsMigrate : Option Call → Bool
  | some (.doMigrate _ _ _) => true
  | _ => false

def vigil : Terms PyException Call Call.Reply Bool Wakes where
  rely _ := True
  tally := Wakes.add
  owed n e cancelled _ o := e.call.isMonitor = true →
    awaitsMigrate o = monitorEnds cancelled n e

theorem owed_apart {c : Call} (hc : c.isMonitor = false) (n : Wakes)
    (r : Except PyException c.Reply) (v w : Bool) (o : Option Call) :
    vigil.owed n ⟨c, r⟩ v w o := by
  intro hq
  rw [hc] at hq
  cases hq

theorem Wakes.add_apart {c : Call} (hc : c.isMonitor = false) (n : Wakes)
    (r : Except PyException c.Reply) : n.add ⟨c, r⟩ = n := by
  cases c <;> first | rfl | cases hc

abbrev Watched (I : Wakes → Prop) : Account Wakes Bool Call EngineState :=
  Paid vigil EngineState.cancelled I

abbrev Watches {α : Type} (p : Engine α) (Q : α → Account Wakes Bool Call EngineState) :
    Account Wakes Bool Call EngineState :=
  Honours vigil EngineState.cancelled p Q (closing EngineState.cancelled)

theorem blind_cancelled : Blind EngineState.cancelled := ⟨fun _ _ _ => rfl, fun _ _ _ => rfl⟩

theorem routeBlind_cancelled : RouteBlind EngineState.cancelled := fun _ _ => rfl

section Replies
variable {I : Wakes → Prop} {n : Wakes} {owed : Bool → Option Call → Prop}

theorem watches_apart {α : Type} {p : Engine α} (hc : Calls (fun c => c.isMonitor = false) p)
    (hk : Keeps EngineState.cancelled p) (hs : Watched I n owed s) :
    Watches p (fun _ => Watched I) n owed s := by
  refine (honours_frame (hc.mono fun c hc n r v hn _ => ?_) (hk s) hs).mono
    (fun _ _ _ _ hq => hq) fun _ _ _ _ hq => hq.owed _
  refine ⟨?_, owed_apart hc n r v v⟩
  have hadd : vigil.tally n ⟨c, r⟩ = n := Wakes.add_apart hc n r
  rw [hadd]
  exact hn

theorem not_monitor_of_within {st : MigrationState} (hst : st ≠ .memory) {c : Call}
    (hc : Within st c) : c.isMonitor = false := by
  cases c with
  | transition task state progress =>
    obtain ⟨-, rfl | hmem⟩ := of_decide_eq_true hc
    · rfl
    · exact absurd hmem hst
  | _ => simp_all [Within, Call.within, Call.isMonitor]

theorem IsStep.unmonitored {st : MigrationState} {step : Engine Unit} (hstep : IsStep st step)
    (hst : st ≠ .memory) : Calls (fun c => c.isMonitor = false) step :=
  hstep.calls.mono fun _ => not_monitor_of_within hst

theorem unmonitored_transition (state : MigrationState) (progress : ℚ) :
    Calls (fun c => c.isMonitor = false) (transition .run state progress) :=
  .bind (.modify _ _) fun _ => .perform rfl

theorem unmonitored_ending (progress : ℚ) :
    Calls (fun c => c.isMonitor = false) (cleanup progress >>= fun _ =>
      transition .run .done 100 >>= fun _ => (pure true : Engine Bool)) :=
  .bind ((isStep_cleanup progress).unmonitored (by decide)) fun _ =>
    .bind (unmonitored_transition _ _) fun _ => .pure _ _

theorem ColdMigrationEngine.watches_steps (hs : Watched I n owed s) :
    Watches (steps cfg) (closing EngineState.cancelled) n owed s := by
  apply Honours.mono (watches_apart ?_ (keeps_steps blind_cancelled routeBlind_cancelled) hs)
  · exact fun _ _ _ _ hq => hq.owed _
  · exact fun _ _ _ _ hq => hq
  · exact .bind (isStep_stepDisk.unmonitored (by decide)) fun _ =>
      .bind (isStep_stepCutover.unmonitored (by decide)) fun _ =>
      .bind (isStep_stepBgp.unmonitored (by decide)) fun _ => unmonitored_ending 95

/-! ### The tunnel -/

structure Waking (k : ℕ) (n : Wakes) (owed : Bool → Option Call → Prop) (s : EngineState) :
    Prop where
  left : n.infos + k = n.polls
  owed : ∀ o, awaitsMigrate o = (s.cancelled || 0 == k) → owed s.cancelled o

/-- An answer about the job is followed by the record of the progress. -/
theorem watches_getProgressPct {k : ℕ} {E : PyException → Account Wakes Bool Call EngineState}
    (sourceHost vmId : String) (hw : Waking (k + 1) n owed s) (hs : s.cancelled = false) :
    Honours vigil EngineState.cancelled (QEMUMigrationTunnel.getProgressPct sourceHost vmId)
      (fun _ n owed s => n.infos + k = n.polls ∧ ∀ o, awaitsMigrate o = false → owed s.cancelled o)
      E n owed s := by
  have hend (r : Except PyException (Option JobInfo)) (v : Bool) :
      (n.add ⟨.jobInfo sourceHost vmId, r⟩).infos + k =
          (n.add ⟨.jobInfo sourceHost vmId, r⟩).polls ∧
        ∀ o, awaitsMigrate o = false → vigil.owed n ⟨.jobInfo sourceHost vmId, r⟩ v v o := by
    have hleft := hw.left
    refine ⟨?_, fun o ho _ => ho⟩
    change n.infos + 1 + k = n.polls
    omega
  refine (honours_tryCatch _ _).2 ((honours_bind _ _).2 ((honours_perform _).2
    ⟨hw.owed _ (by rw [hs]; rfl), fun s' _ => ⟨fun info => ?_, fun e => hend _ _⟩⟩))
  cases info with
  | none => exact hend _ _
  | some info =>
    dsimp only
    split_ifs
    · exact hend _ _
    · exact hend _ _

theorem watches_progressCb {k : ℕ} (pct : ℚ) (hn : n.infos + k = n.polls)
    (ho : ∀ o, awaitsMigrate o = false → owed s.cancelled o) :
    Honours vigil EngineState.cancelled (LiveMigrationEngine.progressCb .monitor pct)
      (fun _ => Waking k) (fun _ => Waking k) n owed s := by
  have hwaking (r : Except PyException Unit) (v : Bool) (o : Option Call)
      (heq : awaitsMigrate o = (v || 0 == k)) :
      vigil.owed n ⟨.transition .monitor .memory (25 + pct * (1 / 2)), r⟩ v v o := by
    have hk : (n.infos == n.polls) = (0 == k) := by
      rw [Bool.eq_iff_iff, beq_iff_eq, beq_iff_eq]
      omega
    intro _
    rw [heq, monitorEnds, hk]
  exact (honours_bind _ _).2 ((honours_perform _).2 ⟨ho _ rfl, fun s' _ =>
    ⟨fun _ => ⟨hn, hwaking _ _⟩, fun _ => ⟨hn, hwaking _ _⟩⟩⟩)

theorem watches_monitorProgress (sourceHost vmId : String) (k : ℕ) :
    ∀ n owed s, Waking k n owed s →
      Watches (QEMUMigrationTunnel.monitorProgress sourceHost vmId
        (LiveMigrationEngine.progressCb .monitor) k)
        (fun _ _ owed s => ∀ o, awaitsMigrate o = true → owed s.cancelled o) n owed s := by
  induction k with
  | zero =>
    intro n owed s hw o ho
    exact hw.owed o (by rw [ho]; simp)
  | succ k ih =>
    intro n owed s hw
    refine (honours_bind _ _).2 ?_
    rw [honours_read]
    split_ifs with hs
    · intro o ho
      exact hw.owed o (by rw [ho, hs]; rfl)
    · rw [Bool.not_eq_true] at hs
      apply Honours.seq (R := fun _ => Waking k) ?_ fun _ => ih
      refine (honours_tryCatch _ _).2 ?_
      apply Honours.seq (watches_getProgressPct sourceHost vmId hw hs)
      rintro pct n owed s ⟨hn, ho⟩
      exact watches_progressCb pct hn ho

/-- After the monitor's last reply the run waits for the migration thread. -/
theorem watches_tunnelRun (vmId sourceHost destHost : String)
    (hs : Watched (· = {}) n owed s) :
    Watches (QEMUMigrationTunnel.run vmId sourceHost destHost
      (LiveMigrationEngine.progressCb .monitor) (LiveMigrationEngine.progressCb .run))
      (fun _ => Watched fun _ => True) n owed s := by
  have hpolls : Watches (tryCatch (await .monitorPolls) fun _ => (pure 0 : Engine ℕ))
      (fun polls => Waking polls) n owed s := by
    have hn := hs.tallied
    subst hn
    refine (honours_tryCatch _ _).2 ((honours_perform _).2 ⟨hs.owed _, fun s' _ =>
      ⟨fun polls => ⟨Nat.zero_add _, fun o ho _ => ?_⟩, fun e => ⟨rfl, fun o ho _ => ?_⟩⟩⟩)
    · rw [ho]
      rfl
    · rw [ho]
      rfl
  apply hpolls.seq
  intro polls n owed s hw
  apply (watches_monitorProgress sourceHost vmId polls n owed s hw).seq
  intro _ n owed s ho
  refine (honours_bind _ _).2 ((honours_perform _).2 ⟨ho _ rfl, fun s' _ =>
    ⟨fun job => ?_, fun e => owed_apart rfl _ _ _ _ _⟩⟩)
  cases job.raised with
  | some e => exact owed_apart rfl _ _ _ _ _
  | none =>
    exact watches_apart (unmonitored_transition _ _) (keeps_transition blind_cancelled.record _ _ _)
      ⟨trivial, trivial, owed_apart rfl _ _ _ _⟩

end Replies

namespace LiveMigrationEngine
variable {n : Wakes} {owed : Bool → Option Call → Prop}

theorem watches_stepMemory (hs : Watched (· = {}) n owed s) :
    Watches stepMemory (fun _ => Watched fun _ => True) n owed s := by
  apply Honours.seq (watches_apart (unmonitored_transition _ _)
    (keeps_transition blind_cancelled.record _ _ _) hs)
  intro _ n owed s hs
  refine (honours_bind _ _).2 ?_
  rw [honours_read]
  cases s.ctx.vm with
  | none => exact ⟨trivial, hs.relied, hs.owed⟩
  | some vm =>
    dsimp only
    split
    · exact hs.owed _
    · exact hs.owed _
    · exact (honours_bind _ _).2 (watches_tunnelRun _ _ _ ⟨hs.tallied, hs.relied, hs.owed⟩)

theorem watches_steps (hs : Watched (· = {}) n owed s) :
    Watches (steps cfg) (closing EngineState.cancelled) n owed s := by
  apply Honours.seq (watches_apart (isStep_stepDiskSync.unmonitored (by decide))
    (keeps_stepDiskSync blind_cancelled.record) hs)
  intro _ n owed s hs
  apply (watches_stepMemory hs).seq
  intro _ n owed s hs
  apply Honours.mono (watches_apart ?_ ?_ hs)
  · exact fun _ _ _ _ hq => hq.owed _
  · exact fun _ _ _ _ hq => hq
  · exact .bind (isStep_stepCutover.unmonitored (by decide)) fun _ =>
      .bind (isStep_stepBgp.unmonitored (by decide)) fun _ => unmonitored_ending 96
  · exact .bind (keeps_stepCutover blind_cancelled) fun _ =>
      .bind (keeps_stepBgp blind_cancelled.record) fun _ => keeps_ending blind_cancelled.record _

end LiveMigrationEngine

/-- What is left of a waiting run goes on to the migration thread as `monitorEnds` says. -/
def Vigilant (h : Trace) (c : Call) (next : Except PyException c.Reply → Engine Bool) : Prop :=
  ∀ r t, Watches (next r) (closing EngineState.cancelled) ((wakes h).add ⟨c, r⟩)
    (vigil.owed (wakes h) ⟨c, r⟩ t.cancelled) t

theorem Vigilant.settle {h : Trace} {p : Engine Bool} {owed : Bool → Option Call → Prop}
    (hp : Watches p (closing EngineState.cancelled) (wakes h) owed s) {c : Call}
    {next : Except PyException c.Reply → Engine Bool}
    (hw : (settle s p).2 = .waiting c next) : Vigilant h c next :=
  fun r t => (Honours.settle hp).2 c next hw r t trivial

theorem Vigilant.awaits_iff {h : Trace} {c : Call}
    {next : Except PyException c.Reply → Engine Bool} (hv : Vigilant h c next)
    (r : Except PyException c.Reply) (hc : c.isMonitor = true) :
    awaitsMigrate (Coroutine.settle s (next r)).2.call =
      monitorEnds s.cancelled (wakes h) ⟨c, r⟩ :=
  (Honours.settle (hv r s)).1 hc

end NovaFederation
