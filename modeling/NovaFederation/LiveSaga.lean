import NovaFederation.Compensation

/-!
# The live engine obeys the law

The same for `LiveMigrationEngine`. What its steps add is the migration thread: its progress
monitor writes to the row and swallows every failure, and the thread itself ends the memory
step only when `migrateToURI3` has returned.
-/

namespace NovaFederation.LiveMigrationEngine
open History Coroutine
variable {cfg : Settings} {p : Plan} {s : EngineState} {h : Trace}

theorem wp_stepDiskSync (hg : Going .live cfg p s h) (hp : PreflightPassed cfg p h)
    (hu : Untouched s h) :
    wp (stepDiskSync cfg)
      (fun _ s' h' => Going .live cfg p s' h' ∧ Untouched s' h' ∧ h <+: h')
      (stopped .live cfg p) s h := by
  rw [stepDiskSync]
  apply wp_seq (wp_transition hg rfl hu.armed)
  intro _ s₁ _ hq
  obtain ⟨hg₁, hr₁, rfl⟩ := hq
  have hh₁ : h <+: h ++ [⟨.transition .run .disk 15, .ok ()⟩] := List.prefix_append _ _
  have hu₁ := (hu.congr hr₁).reply (e := ⟨.transition .run .disk 15, .ok ()⟩) rfl
  rw [wp_bind, wp_read]
  apply wp_forM (fun _ s' h' => Going .live cfg p s' h' ∧ Untouched s' h' ∧ h <+: h')
  · intro done image rest s₂ h₂ _ hq
    obtain ⟨hg₂, hu₂, hh₂⟩ := hq
    have hl : Law .live cfg p h₂ (.getMirrorStatus cfg.pool image) :=
      (law_forward rfl).2 ⟨hg₂.clean, fun _ => hp.extend hh₂, trivial⟩
    apply wp_seq (wp_await_plain hg₂ rfl hl rfl hu₂.armed)
    intro status _ _ hq
    obtain ⟨rfl, rfl, hgo, -⟩ := hq
    exact ⟨hgo rfl, hu₂.reply rfl, prefix_snoc hh₂ _⟩
  · exact ⟨hg₁, hu₁, hh₁⟩

def Watching (cfg : Settings) (p : Plan) (h₀ : Trace) (s : EngineState) (h : Trace) : Prop :=
  Going .live cfg p s h ∧ Untouched s h ∧ h₀ <+: h

section Monitor
variable {h₀ : Trace}

theorem wp_getProgressPct {sourceHost vmId : String} (hw : Watching cfg p h₀ s h)
    (hp : PreflightPassed cfg p h₀) :
    wp (QEMUMigrationTunnel.getProgressPct sourceHost vmId)
      (fun _ => Watching cfg p h₀) (fun _ _ _ => False) s h := by
  obtain ⟨hg, hu, hh⟩ := hw
  have hl : Law .live cfg p h (.jobInfo sourceHost vmId) :=
    (law_forward rfl).2 ⟨hg.clean, fun _ => hp.extend hh, trivial⟩
  rw [QEMUMigrationTunnel.getProgressPct, wp_tryCatch, wp_bind]
  apply wp_mono (wp_await_swallowed hg rfl hl rfl)
  · intro info _ _ hq
    obtain ⟨rfl, rfl, hg'⟩ := hq
    have hw' : Watching cfg p h₀ _ _ := ⟨hg', hu.reply rfl, prefix_snoc hh _⟩
    cases info with
    | none => exact hw'
    | some info =>
      dsimp only
      rw [wp_ite]
      exact ⟨fun _ => hw', fun _ => hw'⟩
  · intro _ _ _ hq
    obtain ⟨rfl, rfl, hg'⟩ := hq
    exact ⟨hg', hu.reply rfl, prefix_snoc hh _⟩

theorem wp_progressCb_monitor {pct : ℚ} (hw : Watching cfg p h₀ s h) :
    wp (progressCb .monitor pct) (fun _ => Watching cfg p h₀) (fun _ => Watching cfg p h₀) s h := by
  obtain ⟨hg, hu, hh⟩ := hw
  rw [progressCb, MigrationEngine.transition, wp_bind, wp_modify]
  have hg₁ : Going .live cfg p
      { s with ctx := { s.ctx with state := .memory, progress := 25 + pct * (1 / 2) } } h :=
    hg.withCtx hg.plan
  have hu₁ : Untouched
      { s with ctx := { s.ctx with state := .memory, progress := 25 + pct * (1 / 2) } } h :=
    hu.congr rfl
  apply wp_mono (wp_await_swallowed hg₁ rfl (law_preparation rfl hg.clean hg.undone) rfl)
  · intro _ _ _ hq
    obtain ⟨rfl, rfl, hg₂⟩ := hq
    exact ⟨hg₂, hu₁.reply rfl, prefix_snoc hh _⟩
  · intro _ _ _ hq
    obtain ⟨rfl, rfl, hg₂⟩ := hq
    exact ⟨hg₂, hu₁.reply rfl, prefix_snoc hh _⟩

theorem wp_monitorProgress {sourceHost vmId : String} (polls : ℕ) (hw : Watching cfg p h₀ s h)
    (hp : PreflightPassed cfg p h₀) :
    wp (QEMUMigrationTunnel.monitorProgress sourceHost vmId (progressCb .monitor) polls)
      (fun _ => Watching cfg p h₀) (fun _ _ _ => False) s h := by
  induction polls generalizing s h with
  | zero => exact hw
  | succ polls ih =>
    rw [QEMUMigrationTunnel.monitorProgress, wp_bind, wp_read, wp_ite]
    refine ⟨fun _ => hw, fun _ => ?_⟩
    rw [wp_bind, wp_tryCatch, wp_bind]
    apply wp_mono (wp_getProgressPct hw hp)
    · intro pct s₁ h₁ hw₁
      exact wp_mono (wp_progressCb_monitor hw₁) (fun _ _ _ => ih) (fun _ _ _ => ih)
    · exact fun _ _ _ hfalse => hfalse.elim

end Monitor

/-- The tunnel is done when the migration thread has moved the VM. -/
theorem wp_tunnelRun {vmId sourceHost destHost : String} (hg : Going .live cfg p s h)
    (hp : PreflightPassed cfg p h) (hu : Untouched s h) :
    wp (QEMUMigrationTunnel.run vmId sourceHost destHost (progressCb .monitor) (progressCb .run))
      (fun _ s' h' => Going .live cfg p s' h' ∧ Untouched s' h' ∧ h <+: h' ∧ Has Migrated h')
      (stopped .live cfg p) s h := by
  have hl : Law .live cfg p h .monitorPolls :=
    (law_forward rfl).2 ⟨hg.clean, fun _ => hp, trivial⟩
  have hpolls : wp (tryCatch (await .monitorPolls) fun _ => pure 0)
      (fun _ => Watching cfg p h) (stopped .live cfg p) s h := by
    rw [wp_tryCatch]
    apply wp_mono (wp_await_swallowed hg rfl hl rfl)
    · intro _ _ _ hq
      obtain ⟨rfl, rfl, hg₁⟩ := hq
      exact ⟨hg₁, hu.reply rfl, List.prefix_append _ _⟩
    · intro _ _ _ hq
      obtain ⟨rfl, rfl, hg₁⟩ := hq
      exact ⟨hg₁, hu.reply rfl, List.prefix_append _ _⟩
  rw [QEMUMigrationTunnel.run]
  apply wp_seq hpolls
  intro polls s₁ h₁ hw₁
  apply wp_seq (wp_mono (wp_monitorProgress polls hw₁ hp) (fun _ _ _ hq => hq)
    (fun _ _ _ hfalse => hfalse.elim))
  intro _ s₂ h₂ hq
  obtain ⟨hg₂, hu₂, hh₂⟩ := hq
  have hl₂ : Law .live cfg p h₂ (.doMigrate vmId sourceHost destHost) :=
    (law_forward rfl).2 ⟨hg₂.clean, fun _ => hp.extend hh₂, rfl, hu₂.unpromoted⟩
  apply wp_seq (wp_await_plain hg₂ rfl hl₂ rfl hu₂.armed)
  intro job _ _ hq
  obtain ⟨rfl, rfl, hgo, hst⟩ := hq
  cases hj : job.raised with
  | some e => exact hst (by simp [Call.refused, hj])
  | none =>
    have hm : Has Migrated (h₂ ++ [⟨.doMigrate vmId sourceHost destHost, .ok job⟩]) :=
      has_snoc.2 (.inr ⟨_, _, _, job, rfl, MigrateJob.migrated_of_raised_eq_none hj⟩)
    have hu₃ := hu₂.reply (e := ⟨.doMigrate vmId sourceHost destHost, .ok job⟩) rfl
    apply wp_weaken (wp_transition (hgo (by simp [Call.refused, hj])) rfl hu₃.armed)
    intro _ s₄ _ hq
    obtain ⟨hg₄, hr₄, rfl⟩ := hq
    exact ⟨hg₄, (hu₃.congr hr₄).reply rfl,
      prefix_snoc (prefix_snoc hh₂ _) _, hm.append _⟩

/-- The step gives up on its own, without a call whose reply made it raise. -/
theorem stopped_of_untouched (hg : Going .live cfg p s h) (hu : Untouched s h) :
    Stopped .live cfg p s h where
  law := hg.law
  forward := fun e he => (hg.clean e he).1
  plan := hg.plan
  attempted := hg.attempted
  compensable := fun hd => absurd hd hu.undemoted
  unarmed := fun _ => hu.unarmed
  deleted := fun hd => absurd hd hg.kept
  undone := hg.undone
  escaped := by simp

theorem wp_stepMemory (hg : Going .live cfg p s h) (hp : PreflightPassed cfg p h)
    (hu : Untouched s h) :
    wp stepMemory
      (fun _ s' h' => Going .live cfg p s' h' ∧ Untouched s' h' ∧ h <+: h' ∧ Has Migrated h')
      (stopped .live cfg p) s h := by
  rw [stepMemory]
  apply wp_seq (wp_transition hg rfl hu.armed)
  intro _ s₁ _ hq
  obtain ⟨hg₁, hr₁, rfl⟩ := hq
  have hh₁ : h <+: h ++ [⟨.transition .run .memory 25, .ok ()⟩] := List.prefix_append _ _
  have hu₁ := (hu.congr hr₁).reply (e := ⟨.transition .run .memory 25, .ok ()⟩) rfl
  obtain ⟨vm, hvm, -, -⟩ := hp.attached
  have hplan := hg₁.plan
  subst hplan
  rw [wp_bind, wp_read, show s₁.ctx.vm = some vm from hvm]
  dsimp only
  split
  · exact stopped_of_untouched hg₁ hu₁
  · exact stopped_of_untouched hg₁ hu₁
  · next destHost _ _ =>
    have hu₂ (fn : Rollback) (hd : fn ≠ .disk) (hc : fn ≠ .cutover) :
        Untouched { s₁ with rollbacks := s₁.rollbacks ++ [fn] }
          (h ++ [⟨.transition .run .memory 25, .ok ()⟩]) := by
      refine ⟨?_, hu₁.undemoted, hu₁.unpromoted⟩
      intro hq
      rcases hq with ha | ha
      · simp only [List.mem_append, List.mem_singleton, hd.symm, or_false] at ha
        exact hu₁.unarmed (.inl ha)
      · simp only [List.mem_append, List.mem_singleton, hc.symm, or_false] at ha
        exact hu₁.unarmed (.inr ha)
    rw [wp_bind, MigrationEngine.registerRollback, wp_modify]
    apply wp_weaken (wp_tunnelRun (hg₁.register _) (hp.extend hh₁) (hu₂ _ (by simp) (by simp)))
    intro _ s₃ h₃ hq
    obtain ⟨hg₃, hu₃, hh₃, hm₃⟩ := hq
    exact ⟨hg₃, hu₃, hh₁.trans hh₃, hm₃⟩

theorem wp_demoteAll (hg : Going .live cfg p s h) (hp : PreflightPassed cfg p h)
    (hu : Untouched s h) (hm : Has Migrated h) :
    wp (p.images.forM fun image => do
        let _ ← await (.waitForSync cfg.pool image (some 0) 60)
        await (.demote cfg.pool image))
      (fun _ s' h' => s' = s ∧ Going .live cfg p s h' ∧ h <+: h' ∧
        ∀ i ∈ p.images, Has (Demoted cfg i) h')
      (stopped .live cfg p) s h := by
  apply wp_weaken (wp_forM (fun done s' h' => s' = s ∧ Going .live cfg p s h' ∧
    ¬ Has PromoteIssued h' ∧ h <+: h' ∧ ∀ i ∈ done, Has (Demoted cfg i) h') _ ?_
    ⟨rfl, hg, hu.unpromoted, List.prefix_rfl, by simp⟩)
  · intro _ s h₁ hq
    obtain ⟨rfl, hg₁, -, hh₁, hd⟩ := hq
    exact ⟨rfl, hg₁, hh₁, hd⟩
  · intro done image rest s h₁ hxs hq
    obtain ⟨rfl, hg₁, hn₁, hh₁, hd⟩ := hq
    have himg : image ∈ p.images := by simp [hxs]
    apply wp_seq (wp_wait hg₁ (hp.extend hh₁) hu.unarmed hn₁)
    intro _ s _ hq
    obtain ⟨rfl, hg₂, hn₂, -, ⟨e, rfl, he⟩, -⟩ := hq
    have hh₂ := prefix_snoc hh₁ e
    apply wp_weaken (wp_demote hg₂ (hp.extend hh₂) hu.unarmed hn₂ himg
      (has_snoc.2 (.inr he)) (fun _ => hm.extend hh₂))
    intro _ s _ hq
    obtain ⟨rfl, hg₃, hn₃, -, e', rfl, he'⟩ := hq
    exact ⟨rfl, hg₃, hn₃, prefix_snoc hh₂ _,
      forall_mem_snoc (fun i hi => (hd i hi).append _) he'⟩

theorem wp_stepCutover (hg : Going .live cfg p s h) (hp : PreflightPassed cfg p h)
    (hu : Untouched s h) (hm : Has Migrated h) :
    wp (stepCutover cfg)
      (fun _ s' h' => Going .live cfg p s' h' ∧ Armed s' ∧ h <+: h' ∧
        ∀ i ∈ p.images, Has (Promoted cfg i) h')
      (stopped .live cfg p) s h := by
  rw [stepCutover]
  apply wp_seq (wp_transition hg rfl hu.armed)
  intro _ s₁ _ hq
  obtain ⟨hg₁, hr₁, rfl⟩ := hq
  have hh₁ : h <+: h ++ [⟨.transition .run .cutover 80, .ok ()⟩] := List.prefix_append _ _
  have hu₁ := (hu.congr hr₁).reply (e := ⟨.transition .run .cutover 80, .ok ()⟩) rfl
  have hplan := hg₁.plan
  subst hplan
  rw [wp_bind, wp_read]
  apply wp_seq (wp_demoteAll hg₁ (hp.extend hh₁) hu₁ (hm.extend hh₁))
  intro _ s₂ h₂ hq
  obtain ⟨rfl, hg₂, hh₂, hd₂⟩ := hq
  rw [wp_bind, MigrationEngine.registerRollback, wp_modify]
  have ha : Armed { s₂ with rollbacks := s₂.rollbacks ++ [.cutover] } := .inr (by simp)
  have hh : h <+: h₂ := hh₁.trans hh₂
  apply wp_weaken (wp_promoteAll (hg₂.register .cutover) (hp.extend hh) ha hd₂)
  intro _ s₃ h₃ hq
  obtain ⟨rfl, hg₃, hh₃, hpr⟩ := hq
  exact ⟨hg₃, ha, hh.trans hh₃, hpr⟩

theorem wp_stepBgp (hg : Going .live cfg p s h) (hp : PreflightPassed cfg p h)
    (ha : Armed s) (hd : ∀ i ∈ p.images, Has (Promoted cfg i) h) :
    wp stepBgp
      (fun _ s' h' => Going .live cfg p s' h' ∧ Armed s' ∧ h <+: h' ∧
        ∀ pfx ∈ p.prefixes, Has (Announced pfx) h')
      (stopped .live cfg p) s h := by
  rw [stepBgp]
  apply wp_seq (wp_transition hg rfl (fun _ => ha))
  intro _ s₁ _ hq
  obtain ⟨hg₁, hr₁, rfl⟩ := hq
  have hh₁ : h <+: h ++ [⟨.transition .run .bgp 90, .ok ()⟩] := List.prefix_append _ _
  have ha₁ := ha.congr hr₁
  have hplan := hg₁.plan
  subst hplan
  rw [wp_bind, wp_read, wp_ite]
  constructor
  · intro hips
    exact ⟨hg₁, ha₁, hh₁, by simp [prefixes_of_no_ips hips]⟩
  · intro _
    apply wp_weaken (wp_handoff hg₁ (hp.extend hh₁) ha₁
      (fun i hi => (hd i hi).extend hh₁))
    intro _ s₂ h₂ hq
    obtain ⟨rfl, hg₂, hh₂, hann⟩ := hq
    exact ⟨hg₂, ha₁, hh₁.trans hh₂, hann⟩

theorem sound_body (ctx : MigrationContext) : Sound .live cfg (body cfg) ctx := by
  apply @sound_of_steps .live cfg ctx
  intro p s₁ h₁ hg₁ hp₁ hu₁
  rw [steps]
  apply wp_seq (wp_stepDiskSync hg₁ hp₁ hu₁)
  intro _ s₂ h₂ hq
  obtain ⟨hg₂, hu₂, hh₂⟩ := hq
  have hp₂ := hp₁.extend hh₂
  apply wp_seq (wp_stepMemory hg₂ hp₂ hu₂)
  intro _ s₃ h₃ hq
  obtain ⟨hg₃, hu₃, hh₃, hm₃⟩ := hq
  have hp₃ := hp₂.extend hh₃
  apply wp_seq (wp_stepCutover hg₃ hp₃ hu₃ hm₃)
  intro _ s₄ h₄ hq
  obtain ⟨hg₄, ha₄, hh₄, hpr₄⟩ := hq
  have hp₄ := hp₃.extend hh₄
  apply wp_seq (wp_stepBgp hg₄ hp₄ ha₄ hpr₄)
  intro _ s₅ h₅ hq
  obtain ⟨hg₅, ha₅, hh₅, han₅⟩ := hq
  have hrel : Relocated .live cfg p h₅ :=
    ⟨hp₄.extend hh₅, fun i hi => (hpr₄ i hi).extend hh₅, by simp, han₅,
      fun _ => hm₃.extend (hh₄.trans hh₅)⟩
  exact wp_ending hg₅ ha₅ hrel

end NovaFederation.LiveMigrationEngine
