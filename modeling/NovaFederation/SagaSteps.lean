import NovaFederation.SagaLaw

/-!
# The pieces that both engines share

Each lemma takes a piece of a step from `Going` to `Going`, or to `Stopped` when an exception
escapes it, and adds what its replies establish.
-/

namespace NovaFederation
open History Coroutine
variable {kind : MigrationType} {cfg : Settings} {p : Plan} {s : EngineState} {h : Trace}

theorem clean_nil : Clean kind [] := by simp [Clean]

theorem clean_snoc {e : CallEvent} :
    Clean kind (h ++ [e]) ↔ Clean kind h ∧ e.call.isForward = true ∧ escapes kind e = false := by
  simp only [Clean, List.mem_append, List.mem_singleton, or_imp, forall_and, forall_eq]
  tauto

theorem Clean.not_syncFailed (hc : Clean kind h) : ¬ Has SyncFailed h := by
  intro hq
  obtain ⟨e, he, hf⟩ := hq
  have hesc := (hc e he).2
  rcases hf with ⟨_, _, _, _, _, rfl⟩ | ⟨_, _, _, rfl⟩ <;> simp [escapes, Call.swallowed] at hesc

theorem PreflightPassed.extend {h' : Trace} (hp : PreflightPassed cfg p h) (hh : h <+: h') :
    PreflightPassed cfg p h' := by
  obtain ⟨vm, hvm, hf, hv⟩ := hp.attached
  exact ⟨⟨vm, hvm, hf.extend hh, hv⟩, fun i hi => (hp.checked i hi).extend hh⟩

theorem law_forward {c : Call} (hc : c.isForward = true) :
    Law kind cfg p h c ↔ Clean kind h ∧
      (c.isPreparation = false → PreflightPassed cfg p h) ∧ Needs kind cfg p h c := by
  simp [Law, hc]

/-- A reply that the step takes in its stride. -/
theorem Going.reply (hg : Going kind cfg p s h) {c : Call} {r : Except PyException c.Reply}
    (hc : c.isForward = true) (hl : Law kind cfg p h c) (hr : escapes kind ⟨c, r⟩ = false)
    (hd : ¬ DeleteIssued ⟨c, r⟩ ∧ ¬ DoneRecorded ⟨c, r⟩) :
    Going kind cfg p s (h ++ [⟨c, r⟩]) where
  law := respects_snoc.2 ⟨hg.law, hl⟩
  clean := clean_snoc.2 ⟨hg.clean, hc, hr⟩
  plan := hg.plan
  attempted := hg.attempted
  aborted := hg.aborted
  kept := by
    rw [has_snoc]
    exact not_or.2 ⟨hg.kept, hd.1⟩
  undone := by
    rw [has_snoc]
    exact not_or.2 ⟨hg.undone, hd.2⟩

/-- A reply that makes the step raise. Outside a demotion loop the handler is registered as
soon as an image is demoted; inside it is not registered yet. -/
theorem Going.stop (hg : Going kind cfg p s h) {c : Call} {r : Except PyException c.Reply}
    (hc : c.isForward = true) (hl : Law kind cfg p h c) (hr : escapes kind ⟨c, r⟩ = true)
    (hd : ¬ DeleteIssued ⟨c, r⟩ ∧ ¬ DoneRecorded ⟨c, r⟩)
    (hs : ¬ Armed s ∧ SyncFailed ⟨c, r⟩ ∨
      (Has DemoteReturned h → Armed s) ∧ ¬ SyncFailed ⟨c, r⟩) :
    Stopped kind cfg p s (h ++ [⟨c, r⟩]) where
  law := respects_snoc.2 ⟨hg.law, hl⟩
  forward := by
    intro e he
    rcases List.mem_append.1 he with he | he
    · exact (hg.clean e he).1
    · rwa [List.mem_singleton.1 he]
  plan := hg.plan
  attempted := hg.attempted
  compensable := by
    have hret : ¬ DemoteReturned ⟨c, r⟩ := by
      intro hq
      obtain ⟨pool, image, heq⟩ := hq
      rw [heq] at hr
      simp [escapes, Call.refused] at hr
    rw [has_snoc, has_snoc]
    intro hq
    rcases hq with hret' | hret'
    · rcases hs with ⟨-, hf⟩ | ⟨ha, -⟩
      · exact .inr (.inr hf)
      · exact .inl (ha hret')
    · exact absurd hret' hret
  unarmed := by
    rw [has_snoc]
    intro hq
    rcases hq with hf | hf
    · exact absurd hf hg.clean.not_syncFailed
    · rcases hs with ⟨ha, -⟩ | ⟨-, hn⟩
      · exact ha
      · exact absurd hf hn
  deleted := by
    rw [has_snoc]
    intro hq
    rcases hq with hk | hk
    · exact absurd hk hg.kept
    · exact absurd hk hd.1
  undone := by
    rw [has_snoc]
    exact not_or.2 ⟨hg.undone, hd.2⟩
  escaped := by
    intro _ hcl
    rw [clean_snoc, hr] at hcl
    simp at hcl

def Call.isPlain : Call → Bool
  | .transition _ state _ => state.isStep
  | .waitForSync _ _ _ _ => false
  | .demote _ _ => false
  | .deleteVm _ => false
  | c => c.isForward

theorem Call.isPlain.spec {c : Call} (hc : c.isPlain = true) {r : Except PyException c.Reply} :
    c.isForward = true ∧ (¬ DeleteIssued ⟨c, r⟩ ∧ ¬ DoneRecorded ⟨c, r⟩) ∧
      ¬ SyncFailed ⟨c, r⟩ ∧ ¬ DemoteReturned ⟨c, r⟩ := by
  cases c <;> simp_all [Call.isPlain, DeleteIssued, DoneRecorded, SyncFailed, DemoteReturned,
    Call.isForward]
  · rintro rfl
    simp [MigrationState.isStep] at hc

abbrev stopped (kind : MigrationType) (cfg : Settings) (p : Plan) :
    PyException → EngineState → Trace → Prop :=
  fun _ s h => Stopped kind cfg p s h

theorem wp_await_plain {c : Call} (hg : Going kind cfg p s h) (hc : c.isPlain = true)
    (hl : Law kind cfg p h c) (hsw : c.swallowed = false)
    (ha : Has DemoteReturned h → Armed s) :
    wp (await c)
      (fun v s' h' => s' = s ∧ h' = h ++ [⟨c, .ok v⟩] ∧
        (c.refused kind v = false → Going kind cfg p s h') ∧
        (c.refused kind v = true → Stopped kind cfg p s h'))
      (stopped kind cfg p) s h := by
  rw [wp_perform]
  constructor
  · intro v
    obtain ⟨hf, hd, hs, -⟩ := Call.isPlain.spec hc (r := .ok v)
    refine ⟨rfl, rfl, fun hr => hg.reply hf hl hr hd, fun hr => ?_⟩
    exact hg.stop hf hl hr hd (.inr ⟨ha, hs⟩)
  · intro x
    obtain ⟨hf, hd, hs, -⟩ := Call.isPlain.spec hc (r := .error x)
    exact hg.stop hf hl (by simp [escapes, hsw]) hd (.inr ⟨ha, hs⟩)

theorem Call.refused_of_swallowed {c : Call} (hc : c.swallowed = true) (v : c.Reply) :
    c.refused kind v = false := by
  cases c <;> simp_all [Call.swallowed, Call.refused]

theorem wp_await_swallowed {c : Call} (hg : Going kind cfg p s h) (hc : c.isPlain = true)
    (hl : Law kind cfg p h c) (hsw : c.swallowed = true) :
    wp (await c)
      (fun v s' h' => s' = s ∧ h' = h ++ [⟨c, .ok v⟩] ∧ Going kind cfg p s h')
      (fun x s' h' => s' = s ∧ h' = h ++ [⟨c, .error x⟩] ∧ Going kind cfg p s h') s h := by
  rw [wp_perform]
  constructor
  · intro v
    obtain ⟨hf, hd, -, -⟩ := Call.isPlain.spec hc (r := .ok v)
    exact ⟨rfl, rfl, hg.reply hf hl (Call.refused_of_swallowed hsw v) hd⟩
  · intro x
    obtain ⟨hf, hd, -, -⟩ := Call.isPlain.spec hc (r := .error x)
    exact ⟨rfl, rfl, hg.reply hf hl (by simp [escapes, hsw]) hd⟩

theorem law_preparation {c : Call} (hc : c.isPreparation = true) (hcl : Clean kind h)
    (hd : ¬ Has DoneRecorded h) :
    Law kind cfg p h c := by
  have hf : c.isForward = true := by cases c <;> simp_all [Call.isPreparation, Call.isForward]
  have hn : Needs kind cfg p h c := by cases c <;> simp_all [Call.isPreparation, Needs]
  rw [law_forward hf]
  exact ⟨hcl, by simp [hc], hn⟩

theorem Going.withCtx (hg : Going kind cfg p s h) {ctx : MigrationContext} (hp : ctx.plan = p) :
    Going kind cfg p { s with ctx } h :=
  ⟨hg.law, hg.clean, hp, hg.attempted, hg.aborted, hg.kept, hg.undone⟩

theorem wp_transition {state : MigrationState} {progress : ℚ} (hg : Going kind cfg p s h)
    (hs : state.isStep = true) (ha : Has DemoteReturned h → Armed s) :
    wp (MigrationEngine.transition .run state progress)
      (fun _ s' h' => Going kind cfg p s' h' ∧ s'.rollbacks = s.rollbacks ∧
        h' = h ++ [⟨.transition .run state progress, .ok ()⟩])
      (stopped kind cfg p) s h := by
  rw [MigrationEngine.transition, wp_bind, wp_modify]
  have hg' : Going kind cfg p { s with ctx := { s.ctx with state, progress } } h :=
    hg.withCtx hg.plan
  have hl : Law kind cfg p h (.transition .run state progress) :=
    law_preparation hs hg.clean hg.undone
  apply wp_weaken (wp_await_plain hg' (by exact hs) hl rfl ha)
  intro _ _ _ hq
  obtain ⟨rfl, rfl, hgo, -⟩ := hq
  exact ⟨hgo rfl, rfl, rfl⟩

/-- While only preparing calls were made, the plan may still change. -/
theorem Going.replan (hg : Going kind cfg p s h) (hh : ∀ e ∈ h, e.call.isPreparation = true)
    (ctx : MigrationContext) : Going kind cfg ctx.plan { s with ctx } h where
  law := by
    refine hg.law.mono ?_
    intro pre e hpre _
    have he : e.call.isPreparation = true := by
      apply hh
      exact hpre.subset (by simp)
    have hpc : Clean kind pre := by
      intro a ha
      apply hg.clean
      exact hpre.subset (by simp [ha])
    have hpd : ¬ Has DoneRecorded pre := fun hd =>
      hg.undone (hd.extend ((List.prefix_append pre [e]).trans hpre))
    exact law_preparation he hpc hpd
  clean := hg.clean
  plan := rfl
  attempted := hg.attempted
  aborted := hg.aborted
  kept := hg.kept
  undone := hg.undone

structure Untouched (s : EngineState) (h : Trace) : Prop where
  unarmed : ¬ Armed s
  undemoted : ¬ Has DemoteReturned h
  unpromoted : ¬ Has PromoteIssued h

theorem Armed.congr {s' : EngineState} (ha : Armed s) (hr : s'.rollbacks = s.rollbacks) :
    Armed s' := by
  rwa [Armed, hr]

theorem Untouched.congr {s' : EngineState} (hu : Untouched s h)
    (hr : s'.rollbacks = s.rollbacks) : Untouched s' h :=
  ⟨fun ha => hu.unarmed (ha.congr hr.symm), hu.undemoted, hu.unpromoted⟩

theorem Untouched.armed (hu : Untouched s h) : Has DemoteReturned h → Armed s :=
  fun hd => absurd hd hu.undemoted

def Call.isDiskFree : Call → Bool
  | .demote _ _ => false
  | .promote _ _ _ => false
  | .promoteRBDImage _ _ _ => false
  | _ => true

theorem Untouched.reply (hu : Untouched s h) {e : CallEvent} (he : e.call.isDiskFree = true) :
    Untouched s (h ++ [e]) where
  unarmed := hu.unarmed
  undemoted := by
    rw [has_snoc]
    intro hq
    rcases hq with hd | ⟨pool, image, rfl⟩
    · exact hu.undemoted hd
    · simp [Call.isDiskFree] at he
  unpromoted := by
    rw [has_snoc]
    intro hq
    rcases hq with hd | ⟨_, _, _, hc⟩ | ⟨_, _, _, hc⟩
    · exact hu.unpromoted hd
    all_goals simp [hc, Call.isDiskFree] at he

theorem wp_checkImages (images : List String) (hg : Going kind cfg p s h)
    (hu : Untouched s h) :
    wp (images.forM fun image => do
        let (ok, reason) ← await (.preflightCheck cfg.pool image cfg.migrationMaxLagBytes)
        if ok then
          pure ()
        else
          throw ⟨.migrationError, s!"RBD preflight failed for {image}: {reason}"⟩)
      (fun _ s' h' => s' = s ∧ Going kind cfg p s h' ∧ Untouched s h' ∧ h <+: h' ∧
        ∀ i ∈ images, Has (Preflighted cfg i) h')
      (stopped kind cfg p) s h := by
  apply wp_forM (fun done s' h' => s' = s ∧ Going kind cfg p s h' ∧ Untouched s h' ∧ h <+: h' ∧
    ∀ i ∈ done, Has (Preflighted cfg i) h')
  · intro done image rest _ h₁ _ hq
    obtain ⟨rfl, hg₁, hu₁, hh₁, hd⟩ := hq
    apply wp_seq (wp_await_plain hg₁ rfl (law_preparation rfl hg₁.clean hg₁.undone) rfl hu₁.armed)
    rintro ⟨ok, reason⟩ _ _ ⟨rfl, rfl, hgo, hst⟩
    dsimp only
    rw [wp_ite]
    constructor
    · rintro rfl
      refine ⟨rfl, hgo rfl, hu₁.reply rfl, hh₁.trans (List.prefix_append _ _), ?_⟩
      intro i hi
      rw [has_snoc]
      rcases List.mem_append.1 hi with hi | hi
      · exact .inl (hd i hi)
      · rw [List.mem_singleton.1 hi]
        exact .inr ⟨reason, rfl⟩
    · intro hok
      rw [wp_throw]
      exact hst (by simpa [Call.refused] using hok)
  · exact ⟨rfl, hg, hu, List.prefix_rfl, by simp⟩

theorem wp_preflight {refusal : String → VMDetails → String} (hr : s.rollbacks = [])
    (ha : s.attempted = []) (hb : s.aborted = false) :
    wp (MigrationEngine.preflight cfg kind.admits refusal)
      (fun _ s' h' => Going kind cfg s'.ctx.plan s' h' ∧ PreflightPassed cfg s'.ctx.plan h' ∧
        Untouched s' h')
      (fun _ s' h' => Stopped kind cfg s'.ctx.plan s' h') s [] := by
  have hg : Going kind cfg s.ctx.plan s [] :=
    ⟨respects_nil _, clean_nil, rfl, ha, hb, not_has_nil _, not_has_nil _⟩
  have hu : Untouched s [] := ⟨by simp [Armed, hr], not_has_nil _, not_has_nil _⟩
  rw [MigrationEngine.preflight]
  apply wp_seq (wp_mono (wp_transition hg rfl hu.armed) (fun _ _ _ hq => hq)
    (fun _ _ _ hst => hst.plan ▸ hst))
  intro _ s₁ h₁ hq
  obtain ⟨hg₁, hr₁, rfl⟩ := hq
  have hu₁ := (hu.congr hr₁).reply (e := ⟨.transition .run .preflight 5, .ok ()⟩) rfl
  have hprep : ∀ e ∈ [⟨.transition .run .preflight 5, .ok ()⟩],
      (e : CallEvent).call.isPreparation = true := by
    simp [Call.isPreparation, MigrationState.isStep]
  rw [wp_bind, wp_read, wp_bind, wp_perform]
  constructor
  · intro vm
    have hl (p' : Plan) : Law kind cfg p' [⟨.transition .run .preflight 5, .ok ()⟩]
        (.getVm s₁.ctx.vmId) := law_preparation rfl hg₁.clean hg₁.undone
    rw [wp_bind, wp_modify, wp_ite]
    constructor
    · intro hadm
      have hok : escapes kind ⟨.getVm s₁.ctx.vmId, .ok vm⟩ = false := by
        simp [escapes, Call.refused, hadm]
      rw [wp_bind, wp_modify, wp_bind, wp_read]
      have hg₂ (ctx : MigrationContext) :=
        (hg₁.replan hprep ctx).reply rfl (hl _) hok (by simp [DeleteIssued, DoneRecorded])
      have hu₂ (ctx : MigrationContext) : Untouched { s₁ with ctx }
          ([] ++ [⟨.transition .run .preflight 5, .ok ()⟩] ++ [⟨.getVm s₁.ctx.vmId, .ok vm⟩]) := by
        apply Untouched.reply _ rfl
        exact hu₁.congr rfl
      apply wp_mono (wp_checkImages _ (hg₂ _) (hu₂ _))
      · intro _ _ h₃ hq
        obtain ⟨rfl, hg₃, hu₃, hh₃, hd⟩ := hq
        refine ⟨hg₃, ⟨⟨vm, rfl, ?_, ?_⟩, hd⟩, hu₃⟩
        · exact (has_snoc.2 (.inr ⟨_, rfl⟩)).extend hh₃
        · intro volumeId hv
          exact List.mem_append_right _ (List.mem_map.2 ⟨volumeId, hv, rfl⟩)
      · exact fun _ _ _ hst => hst.plan ▸ hst
    · intro hadm
      rw [wp_throw]
      have hbad : escapes kind ⟨.getVm s₁.ctx.vmId, .ok vm⟩ = true := by
        simp [escapes, Call.refused, hadm]
      exact (hg₁.replan hprep _).stop rfl (hl _) hbad (by simp [DeleteIssued, DoneRecorded])
        (.inr ⟨hu₁.armed, by simp [SyncFailed]⟩)
  · intro x
    exact (hg₁.replan hprep _).stop rfl (law_preparation rfl hg₁.clean hg₁.undone) rfl
      (by simp [DeleteIssued, DoneRecorded]) (.inr ⟨hu₁.armed, by simp [SyncFailed]⟩)

theorem prefix_snoc {h₁ : Trace} (hh : h <+: h₁) (e : CallEvent) : h <+: h₁ ++ [e] :=
  hh.trans (List.prefix_append _ _)

theorem forall_mem_snoc {ι : Type} {done : List ι} {x : ι} {P : ι → CallEvent → Prop}
    {e : CallEvent} (hd : ∀ i ∈ done, Has (P i) h) (hx : P x e) :
    ∀ i ∈ done ++ [x], Has (P i) (h ++ [e]) := by
  intro i hi
  rw [has_snoc]
  rcases List.mem_append.1 hi with hi | hi
  · exact .inl (hd i hi)
  · rw [List.mem_singleton.1 hi]
    exact .inr hx

/-- Await a call of a demotion loop: its exceptions leave the step before the handler is
registered. -/
theorem wp_await_sync {c : Call} (hg : Going kind cfg p s h) (hc : c.isForward = true)
    (hl : Law kind cfg p h c) (hr : ∀ v, c.refused kind v = false)
    (hf : ∀ x, SyncFailed ⟨c, .error x⟩) (hd : ∀ r, ¬ DeleteIssued ⟨c, r⟩ ∧ ¬ DoneRecorded ⟨c, r⟩)
    (hsw : c.swallowed = false) (ha : ¬ Armed s) :
    wp (await c)
      (fun v s' h' => s' = s ∧ h' = h ++ [⟨c, .ok v⟩] ∧ Going kind cfg p s h')
      (stopped kind cfg p) s h := by
  rw [wp_perform]
  constructor
  · intro v
    exact ⟨rfl, rfl, hg.reply hc hl (hr v) (hd _)⟩
  · intro x
    exact hg.stop hc hl (by simp [escapes, hsw]) (hd _) (.inl ⟨ha, hf x⟩)

theorem wp_wait {image : String} {maxLag : Option ℕ} {timeout : ℕ} (hg : Going kind cfg p s h)
    (hp : PreflightPassed cfg p h) (ha : ¬ Armed s) (hn : ¬ Has PromoteIssued h) :
    wp (await (.waitForSync cfg.pool image maxLag timeout))
      (fun _ s' h' => s' = s ∧ Going kind cfg p s h' ∧ ¬ Has PromoteIssued h' ∧ h <+: h' ∧
        (∃ e, h' = h ++ [e] ∧ Synced cfg image e) ∧
        (¬ Has DemoteReturned h → ¬ Has DemoteReturned h'))
      (stopped kind cfg p) s h := by
  have hl : Law kind cfg p h (.waitForSync cfg.pool image maxLag timeout) :=
    (law_forward rfl).2 ⟨hg.clean, fun _ => hp, hn⟩
  apply wp_weaken (wp_await_sync hg rfl hl (fun _ => rfl) (fun x => .inl ⟨_, _, _, _, x, rfl⟩)
    (by simp [DeleteIssued, DoneRecorded]) rfl ha)
  intro status _ _ hq
  obtain ⟨rfl, rfl, hg'⟩ := hq
  refine ⟨rfl, hg', ?_, List.prefix_append _ _, ⟨_, rfl, _, _, status, rfl⟩, ?_⟩
  · rw [has_snoc]
    simp [hn, PromoteIssued]
  · intro hd
    rw [has_snoc]
    simp [hd, DemoteReturned]

theorem wp_demote {image : String} (hg : Going kind cfg p s h) (hp : PreflightPassed cfg p h)
    (ha : ¬ Armed s) (hn : ¬ Has PromoteIssued h) (hi : image ∈ p.images)
    (hs : Has (Synced cfg image) h) (hm : kind = .live → Has Migrated h) :
    wp (await (.demote cfg.pool image))
      (fun _ s' h' => s' = s ∧ Going kind cfg p s h' ∧ ¬ Has PromoteIssued h' ∧ h <+: h' ∧
        ∃ e, h' = h ++ [e] ∧ Demoted cfg image e)
      (stopped kind cfg p) s h := by
  have hl : Law kind cfg p h (.demote cfg.pool image) :=
    (law_forward rfl).2 ⟨hg.clean, fun _ => hp, rfl, hi, hs, hn, hm⟩
  apply wp_weaken (wp_await_sync hg rfl hl (fun _ => rfl) (fun x => .inr ⟨_, _, x, rfl⟩)
    (by simp [DeleteIssued, DoneRecorded]) rfl ha)
  intro _ _ _ hq
  obtain ⟨rfl, rfl, hg'⟩ := hq
  refine ⟨rfl, hg', ?_, List.prefix_append _ _, _, rfl, rfl⟩
  rw [has_snoc]
  simp [hn, PromoteIssued]

theorem Going.register (hg : Going kind cfg p s h) (fn : Rollback) :
    Going kind cfg p { s with rollbacks := s.rollbacks ++ [fn] } h :=
  ⟨hg.law, hg.clean, hg.plan, hg.attempted, hg.aborted, hg.kept, hg.undone⟩

theorem wp_promoteAll (hg : Going kind cfg p s h) (hp : PreflightPassed cfg p h) (ha : Armed s)
    (hd : ∀ i ∈ p.images, Has (Demoted cfg i) h) :
    wp (MigrationEngine.promoteAll cfg)
      (fun _ s' h' => s' = s ∧ Going kind cfg p s h' ∧ h <+: h' ∧
        ∀ i ∈ p.images, Has (Promoted cfg i) h')
      (stopped kind cfg p) s h := by
  have hplan := hg.plan
  subst hplan
  rw [MigrationEngine.promoteAll, wp_bind, wp_read]
  apply wp_forM (fun done s' h' => s' = s ∧ Going kind cfg s.ctx.plan s h' ∧ h <+: h' ∧
    ∀ i ∈ done, Has (Promoted cfg i) h')
  · intro done image rest s h₁ hxs hq
    obtain ⟨rfl, hg₁, hh₁, hd₁⟩ := hq
    have himg : image ∈ s.ctx.plan.images := by
      change image ∈ s.ctx.rbdImages
      simp [hxs]
    have hdem : ∀ i ∈ s.ctx.plan.images, Has (Demoted cfg i) h₁ :=
      fun i hi => (hd i hi).extend hh₁
    have hpre : PreflightPassed cfg s.ctx.plan h₁ := hp.extend hh₁
    rw [wp_ite]
    constructor
    · intro hcl
      have hl : Law kind cfg s.ctx.plan h₁ (.promoteRBDImage .dest cfg.pool image) :=
        (law_forward rfl).2 ⟨hg₁.clean, fun _ => hpre, rfl, rfl, hcl, himg, hdem⟩
      apply wp_seq (wp_await_plain hg₁ rfl hl rfl (fun _ => ha))
      intro response _ _ hq
      obtain ⟨rfl, rfl, hgo, -⟩ := hq
      exact ⟨rfl, hgo rfl, prefix_snoc hh₁ _,
        forall_mem_snoc hd₁ (.inl ⟨response, rfl⟩)⟩
    · intro hcl
      have hl : Law kind cfg s.ctx.plan h₁ (.promote cfg.pool image false) :=
        (law_forward rfl).2 ⟨hg₁.clean, fun _ => hpre, rfl,
          by simpa [MigrationContext.plan] using hcl, himg, hdem⟩
      apply wp_weaken (wp_await_plain hg₁ rfl hl rfl (fun _ => ha))
      intro _ _ _ hq
      obtain ⟨rfl, rfl, hgo, -⟩ := hq
      exact ⟨rfl, hgo rfl, prefix_snoc hh₁ _, forall_mem_snoc hd₁ (.inr rfl)⟩
  · exact ⟨rfl, hg, List.prefix_rfl, by simp⟩

theorem prefixes_of_no_ips {ctx : MigrationContext} (hips : ctx.vmIps.isEmpty = true) :
    ctx.plan.prefixes = [] := by
  simp [MigrationContext.plan, MigrationEngine.prefixes, List.isEmpty_iff.1 hips]

theorem wp_announceAll {prefixes : List String} {nextHop : Option String}
    (hg : Going kind cfg p s h) (hp : PreflightPassed cfg p h) (ha : Armed s)
    (hd : ∀ i ∈ p.images, Has (Promoted cfg i) h) :
    wp (prefixes.forM fun pfx => await (.announce ⟨pfx, nextHop⟩))
      (fun _ s' h' => s' = s ∧ Going kind cfg p s h' ∧ h <+: h' ∧
        ∀ pfx ∈ prefixes, Has (Announced pfx) h')
      (stopped kind cfg p) s h := by
  apply wp_forM (fun done s' h' => s' = s ∧ Going kind cfg p s h' ∧ h <+: h' ∧
    ∀ pfx ∈ done, Has (Announced pfx) h')
  · intro done pfx rest s h₁ _ hq
    obtain ⟨rfl, hg₁, hh₁, hd₁⟩ := hq
    have hl : Law kind cfg p h₁ (.announce ⟨pfx, nextHop⟩) :=
      (law_forward rfl).2
        ⟨hg₁.clean, fun _ => hp.extend hh₁, fun i hi => (hd i hi).extend hh₁⟩
    apply wp_weaken (wp_await_plain hg₁ rfl hl rfl (fun _ => ha))
    intro _ _ _ hq
    obtain ⟨rfl, rfl, hgo, -⟩ := hq
    exact ⟨rfl, hgo rfl, prefix_snoc hh₁ _, forall_mem_snoc hd₁ ⟨nextHop, rfl⟩⟩
  · exact ⟨rfl, hg, List.prefix_rfl, by simp⟩

theorem wp_withdrawAll {prefixes : List String} {peer : Side}
    {client : Option (CNFControlStub peer)} (hg : Going kind cfg p s h)
    (hp : PreflightPassed cfg p h) (hd : ∀ pfx ∈ p.prefixes, Has (Announced pfx) h) :
    wp (prefixes.forM fun pfx => do
        try
          let _ ← CNFControlStub.withdrawIP client pfx
        catch _ => pure ())
      (fun _ s' h' => s' = s ∧ Going kind cfg p s h' ∧ h <+: h') (stopped kind cfg p) s h := by
  apply wp_forM (fun _ s' h' => s' = s ∧ Going kind cfg p s h' ∧ h <+: h')
  · intro done pfx rest s h₁ _ hq
    obtain ⟨rfl, hg₁, hh₁⟩ := hq
    have hl : Law kind cfg p h₁ (.withdrawIP peer pfx) :=
      (law_forward rfl).2 ⟨hg₁.clean, fun _ => hp.extend hh₁, fun q hq => (hd q hq).extend hh₁⟩
    rw [wp_tryCatch]
    cases client with
    | none => exact ⟨rfl, hg₁, hh₁⟩
    | some stub =>
      rw [wp_bind]
      apply wp_mono (wp_await_swallowed hg₁ rfl hl rfl)
      · intro _ _ _ hq
        obtain ⟨rfl, rfl, hg₂⟩ := hq
        exact ⟨rfl, hg₂, prefix_snoc hh₁ _⟩
      · intro _ _ _ hq
        obtain ⟨rfl, rfl, hg₂⟩ := hq
        exact ⟨rfl, hg₂, prefix_snoc hh₁ _⟩
  · exact ⟨rfl, hg, List.prefix_rfl⟩

theorem wp_convergeAll {prefixes : List String} (hg : Going kind cfg p s h)
    (hp : PreflightPassed cfg p h) (ha : Armed s) :
    wp (prefixes.forM fun pfx => await (.waitConvergence pfx))
      (fun _ s' h' => s' = s ∧ Going kind cfg p s h' ∧ h <+: h') (stopped kind cfg p) s h := by
  apply wp_forM (fun _ s' h' => s' = s ∧ Going kind cfg p s h' ∧ h <+: h')
  · intro done pfx rest s h₁ _ hq
    obtain ⟨rfl, hg₁, hh₁⟩ := hq
    have hl : Law kind cfg p h₁ (.waitConvergence pfx) :=
      (law_forward rfl).2 ⟨hg₁.clean, fun _ => hp.extend hh₁, trivial⟩
    apply wp_weaken (wp_await_plain hg₁ rfl hl rfl (fun _ => ha))
    intro _ _ _ hq
    obtain ⟨rfl, rfl, hgo, -⟩ := hq
    exact ⟨rfl, hgo rfl, prefix_snoc hh₁ _⟩
  · exact ⟨rfl, hg, List.prefix_rfl⟩

theorem wp_handoff {peer : Side} {client : Option (CNFControlStub peer)} {nextHop : Option String}
    (hg : Going kind cfg p s h) (hp : PreflightPassed cfg p h) (ha : Armed s)
    (hd : ∀ i ∈ p.images, Has (Promoted cfg i) h) :
    wp (BGPManager.handoff p.prefixes nextHop client)
      (fun _ s' h' => s' = s ∧ Going kind cfg p s h' ∧ h <+: h' ∧
        ∀ pfx ∈ p.prefixes, Has (Announced pfx) h')
      (stopped kind cfg p) s h := by
  rw [BGPManager.handoff]
  apply wp_seq (wp_announceAll hg hp ha hd)
  intro _ s h₁ hq
  obtain ⟨rfl, hg₁, hh₁, hd₁⟩ := hq
  apply wp_seq (wp_withdrawAll hg₁ (hp.extend hh₁) hd₁)
  intro _ s h₂ hq
  obtain ⟨rfl, hg₂, hh₂⟩ := hq
  apply wp_weaken (wp_convergeAll hg₂ (hp.extend (hh₁.trans hh₂)) ha)
  intro _ s h₃ hq
  obtain ⟨rfl, hg₃, hh₃⟩ := hq
  exact ⟨rfl, hg₃, hh₁.trans (hh₂.trans hh₃), fun q hq => (hd₁ q hq).extend (hh₂.trans hh₃)⟩

/-- The source VM has been asked to go; only the last transition is left. -/
structure Deleted (kind : MigrationType) (cfg : Settings) (p : Plan) (s : EngineState)
    (h : Trace) : Prop where
  law : Respects (Law kind cfg p) h
  clean : Clean kind h
  plan : s.ctx.plan = p
  attempted : s.attempted = []
  issued : Has DeleteIssued h
  undone : ¬ Has DoneRecorded h

/-- What the deletion of the source VM presupposes. -/
structure Relocated (kind : MigrationType) (cfg : Settings) (p : Plan) (h : Trace) : Prop where
  preflight : PreflightPassed cfg p h
  promoted : ∀ i ∈ p.images, Has (Promoted cfg i) h
  created : kind = .cold → ∀ i ∈ p.images, Has (VolumeCreated cfg i) h
  announced : ∀ pfx ∈ p.prefixes, Has (Announced pfx) h
  migrated : kind = .live → Has Migrated h

theorem Relocated.extend {h' : Trace} (hr : Relocated kind cfg p h) (hh : h <+: h') :
    Relocated kind cfg p h' where
  preflight := hr.preflight.extend hh
  promoted := fun i hi => (hr.promoted i hi).extend hh
  created := fun hk i hi => (hr.created hk i hi).extend hh
  announced := fun pfx hpfx => (hr.announced pfx hpfx).extend hh
  migrated := fun hk => (hr.migrated hk).extend hh

theorem wp_cleanup {progress : ℚ} (hg : Going kind cfg p s h) (ha : Armed s)
    (hr : Relocated kind cfg p h) :
    wp (MigrationEngine.cleanup progress)
      (fun _ s' h' => Deleted kind cfg p s' h' ∧ s'.rollbacks = s.rollbacks ∧ h <+: h')
      (stopped kind cfg p) s h := by
  rw [MigrationEngine.cleanup]
  apply wp_seq (wp_transition hg rfl (fun _ => ha))
  intro _ s₁ _ hq
  obtain ⟨hg₁, hr₁, rfl⟩ := hq
  have hh : h <+: h ++ [⟨.transition .run .cleanup progress, .ok ()⟩] := List.prefix_append _ _
  have hm := hr.extend hh
  have hl : Law kind cfg p (h ++ [⟨.transition .run .cleanup progress, .ok ()⟩])
      (.deleteVm s₁.ctx.vmId) :=
    (law_forward rfl).2 ⟨hg₁.clean, fun _ => hm.preflight, hg₁.kept, hm.promoted, hm.created,
      hm.announced, hm.migrated⟩
  have hdel (r : Except PyException Unit) : Deleted kind cfg p s₁
      (h ++ [⟨.transition .run .cleanup progress, .ok ()⟩] ++ [⟨.deleteVm s₁.ctx.vmId, r⟩]) :=
    ⟨respects_snoc.2 ⟨hg₁.law, hl⟩, clean_snoc.2 ⟨hg₁.clean, rfl, by cases r <;> rfl⟩, hg₁.plan,
      hg₁.attempted, has_snoc.2 (.inr ⟨_, rfl⟩), by
        rw [has_snoc]
        exact not_or.2 ⟨hg₁.undone, by simp [DoneRecorded]⟩⟩
  rw [wp_bind, wp_read, wp_tryCatch, wp_perform]
  exact ⟨fun _ => ⟨hdel _, hr₁, prefix_snoc hh _⟩,
    fun _ => ⟨hdel _, hr₁, prefix_snoc hh _⟩⟩

structure Done (kind : MigrationType) (cfg : Settings) (p : Plan) (s : EngineState)
    (h : Trace) : Prop where
  law : Respects (Law kind cfg p) h
  clean : Clean kind h
  plan : s.ctx.plan = p
  attempted : s.attempted = []
  recorded : ∃ pre, h = pre ++ [⟨.transition .run .done 100, .ok ()⟩]

/-- The transition that ends a successful run. Its failure is the one that comes after the
deletion of the source VM. -/
theorem wp_done (hd : Deleted kind cfg p s h) (hp : PreflightPassed cfg p h) (ha : Armed s) :
    wp (MigrationEngine.transition .run .done 100)
      (fun _ s' h' => Done kind cfg p s' h' ∧ s'.rollbacks = s.rollbacks ∧ h <+: h')
      (stopped kind cfg p) s h := by
  have hl : Law kind cfg p h (.transition .run .done 100) :=
    (law_forward rfl).2 ⟨hd.clean, fun _ => hp, hd.undone, .inr ⟨rfl, hd.issued⟩⟩
  rw [MigrationEngine.transition, wp_bind, wp_modify, wp_perform]
  constructor
  · intro v
    exact ⟨⟨respects_snoc.2 ⟨hd.law, hl⟩, clean_snoc.2 ⟨hd.clean, rfl, rfl⟩, hd.plan,
      hd.attempted, h, rfl⟩, rfl, List.prefix_append _ _⟩
  · intro x
    exact {
      law := respects_snoc.2 ⟨hd.law, hl⟩
      forward := by
        intro e he
        rcases List.mem_append.1 he with he | he
        · exact (hd.clean e he).1
        · rw [List.mem_singleton.1 he]
          rfl
      plan := hd.plan
      attempted := hd.attempted
      compensable := fun _ => .inl ha
      unarmed := by
        rw [has_snoc]
        intro hq
        rcases hq with hf | hf
        · exact absurd hf hd.clean.not_syncFailed
        · simp [SyncFailed] at hf
      deleted := fun _ => has_snoc.2 (.inr ⟨100, x, rfl⟩)
      undone := by
        rw [has_snoc]
        exact not_or.2 ⟨hd.undone, by simp [DoneRecorded]⟩
      escaped := by
        intro _ hcl
        simp [clean_snoc, escapes, Call.swallowed] at hcl }

end NovaFederation
