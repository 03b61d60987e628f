import NovaFederation.Compensation

/-!
# The cold engine obeys the law

One lemma for each step of `ColdMigrationEngine`, and from them the report of a whole run.
-/

namespace NovaFederation.ColdMigrationEngine
open History Coroutine
variable {cfg : Settings} {p : Plan} {s : EngineState} {h : Trace}

theorem wp_waitAll (images : List String) (hg : Going .cold cfg p s h)
    (hp : PreflightPassed cfg p h) (hu : Untouched s h) :
    wp (images.forM fun image => do
        let _ ← await (.waitForSync cfg.pool image none 300))
      (fun _ s' h' => s' = s ∧ Going .cold cfg p s h' ∧ Untouched s h' ∧ h <+: h' ∧
        ∀ i ∈ images, Has (Synced cfg i) h')
      (stopped .cold cfg p) s h := by
  apply wp_forM (fun done s' h' => s' = s ∧ Going .cold cfg p s h' ∧ Untouched s h' ∧ h <+: h' ∧
    ∀ i ∈ done, Has (Synced cfg i) h')
  · intro done image rest s h₁ _ hq
    obtain ⟨rfl, hg₁, hu₁, hh₁, hd⟩ := hq
    apply wp_seq (wp_wait hg₁ (hp.extend hh₁) hu₁.unarmed hu₁.unpromoted)
    intro _ s _ hq
    obtain ⟨rfl, hg₂, hn₂, -, ⟨e, rfl, hs⟩, hdem⟩ := hq
    exact ⟨rfl, hg₂, ⟨hu₁.unarmed, hdem hu₁.undemoted, hn₂⟩, prefix_snoc hh₁ _,
      forall_mem_snoc hd hs⟩
  · exact ⟨rfl, hg, hu, List.prefix_rfl, by simp⟩

theorem wp_demoteAll (hg : Going .cold cfg p s h) (hp : PreflightPassed cfg p h)
    (ha : ¬ Armed s) (hn : ¬ Has PromoteIssued h) (hs : ∀ i ∈ p.images, Has (Synced cfg i) h) :
    wp (p.images.forM fun image => await (.demote cfg.pool image))
      (fun _ s' h' => s' = s ∧ Going .cold cfg p s h' ∧ h <+: h' ∧
        ∀ i ∈ p.images, Has (Demoted cfg i) h')
      (stopped .cold cfg p) s h := by
  apply wp_weaken (wp_forM (fun done s' h' => s' = s ∧ Going .cold cfg p s h' ∧
    ¬ Has PromoteIssued h' ∧ h <+: h' ∧ ∀ i ∈ done, Has (Demoted cfg i) h') _ ?_
    ⟨rfl, hg, hn, List.prefix_rfl, by simp⟩)
  · intro _ s h₁ hq
    obtain ⟨rfl, hg₁, -, hh₁, hd⟩ := hq
    exact ⟨rfl, hg₁, hh₁, hd⟩
  · intro done image rest s h₁ hxs hq
    obtain ⟨rfl, hg₁, hn₁, hh₁, hd⟩ := hq
    have himg : image ∈ p.images := by simp [hxs]
    apply wp_weaken (wp_demote hg₁ (hp.extend hh₁) ha hn₁ himg
      ((hs image himg).extend hh₁) (by simp))
    intro _ s _ hq
    obtain ⟨rfl, hg₂, hn₂, -, e, rfl, he⟩ := hq
    exact ⟨rfl, hg₂, hn₂, prefix_snoc hh₁ _, forall_mem_snoc hd he⟩

theorem wp_stopActive (hg : Going .cold cfg p s h) (hp : PreflightPassed cfg p h)
    (hu : Untouched s h) :
    wp (if s.ctx.vm.any (·.status == "ACTIVE") then await (.stopVm s.ctx.vmId) else pure ())
      (fun _ s' h' => s' = s ∧ Going .cold cfg p s h' ∧ Untouched s h' ∧ h <+: h')
      (stopped .cold cfg p) s h := by
  rw [wp_ite]
  constructor
  · intro _
    have hl : Law .cold cfg p h (.stopVm s.ctx.vmId) :=
      (law_forward rfl).2 ⟨hg.clean, fun _ => hp, trivial⟩
    apply wp_weaken (wp_await_plain hg rfl hl rfl hu.armed)
    intro _ _ _ hq
    obtain ⟨rfl, rfl, hgo, -⟩ := hq
    exact ⟨rfl, hgo rfl, hu.reply rfl, List.prefix_append _ _⟩
  · intro _
    exact ⟨rfl, hg, hu, List.prefix_rfl⟩

theorem wp_stepDisk (hg : Going .cold cfg p s h) (hp : PreflightPassed cfg p h)
    (hu : Untouched s h) :
    wp (stepDisk cfg)
      (fun _ s' h' => Going .cold cfg p s' h' ∧ Armed s' ∧ h <+: h' ∧
        ∀ i ∈ p.images, Has (Promoted cfg i) h')
      (stopped .cold cfg p) s h := by
  rw [stepDisk]
  apply wp_seq (wp_transition hg rfl hu.armed)
  intro _ s₁ _ hq
  obtain ⟨hg₁, hr₁, rfl⟩ := hq
  have hh₁ : h <+: h ++ [⟨.transition .run .disk 20, .ok ()⟩] := List.prefix_append _ _
  have hu₁ := (hu.congr hr₁).reply (e := ⟨.transition .run .disk 20, .ok ()⟩) rfl
  rw [wp_bind, wp_read]
  apply wp_seq (wp_stopActive hg₁ (hp.extend hh₁) hu₁)
  intro _ s₂ h₂ hq
  obtain ⟨rfl, hg₂, hu₂, hh₁₂⟩ := hq
  have hh₂ := hh₁.trans hh₁₂
  have hplan := hg₂.plan
  subst hplan
  apply wp_seq (wp_waitAll _ hg₂ (hp.extend hh₂) hu₂)
  intro _ s₃ h₃ hq
  obtain ⟨rfl, hg₃, hu₃, hh₃, hs₃⟩ := hq
  apply wp_seq (wp_demoteAll hg₃ (hp.extend (hh₂.trans hh₃)) hu₃.unarmed hu₃.unpromoted hs₃)
  intro _ s₄ h₄ hq
  obtain ⟨rfl, hg₄, hh₄, hd₄⟩ := hq
  rw [wp_bind, MigrationEngine.registerRollback, wp_modify]
  have ha : Armed { s₄ with rollbacks := s₄.rollbacks ++ [.disk] } := .inl (by simp)
  have hh : h <+: h₄ := hh₂.trans (hh₃.trans hh₄)
  apply wp_seq (wp_promoteAll (hg₄.register .disk) (hp.extend hh) ha hd₄)
  intro _ s₅ h₅ hq
  obtain ⟨rfl, hg₅, hh₅, hpr⟩ := hq
  apply wp_weaken (wp_transition hg₅ rfl (fun _ => ha))
  intro _ s₆ _ hq
  obtain ⟨hg₆, hr₆, rfl⟩ := hq
  exact ⟨hg₆, ha.congr hr₆, prefix_snoc (hh.trans hh₅) _,
    fun i hi => (hpr i hi).append _⟩

theorem wp_lookupVolume {vm : VMDetails} {image : String} (hg : Going .cold cfg p s h)
    (hp : PreflightPassed cfg p h) :
    wp (lookupVolume vm image) (fun _ s' h' => s' = s ∧ Going .cold cfg p s h' ∧ h <+: h')
      (stopped .cold cfg p) s h := by
  unfold lookupVolume
  split
  · next volumeId _ =>
    have hl : Law .cold cfg p h (.getVolume volumeId) :=
      (law_forward rfl).2 ⟨hg.clean, fun _ => hp, trivial⟩
    rw [wp_tryCatch, wp_bind]
    apply wp_mono (wp_await_swallowed hg rfl hl rfl)
    · intro _ _ _ hq
      obtain ⟨rfl, rfl, hg'⟩ := hq
      exact ⟨rfl, hg', List.prefix_append _ _⟩
    · intro _ _ _ hq
      obtain ⟨rfl, rfl, hg'⟩ := hq
      exact ⟨rfl, hg', List.prefix_append _ _⟩
  · exact ⟨rfl, hg, List.prefix_rfl⟩

theorem wp_stepCutover (hg : Going .cold cfg p s h) (hp : PreflightPassed cfg p h)
    (ha : Armed s) (hd : ∀ i ∈ p.images, Has (Promoted cfg i) h) :
    wp (stepCutover cfg)
      (fun _ s' h' => Going .cold cfg p s' h' ∧ Armed s' ∧ h <+: h' ∧
        ∀ i ∈ p.images, Has (VolumeCreated cfg i) h')
      (stopped .cold cfg p) s h := by
  rw [stepCutover]
  apply wp_seq (wp_transition hg rfl (fun _ => ha))
  intro _ s₁ _ hq
  obtain ⟨hg₁, hr₁, rfl⟩ := hq
  have hh₁ : h <+: h ++ [⟨.transition .run .cutover 70, .ok ()⟩] := List.prefix_append _ _
  have ha₁ := ha.congr hr₁
  obtain ⟨vm, hvm, -, -⟩ := hp.attached
  have hplan := hg₁.plan
  subst hplan
  rw [wp_bind, wp_read, show s₁.ctx.vm = some vm from hvm]
  apply wp_weaken (wp_forM (fun done s' h' => s' = s₁ ∧ Going .cold cfg s₁.ctx.plan s₁ h' ∧
    h <+: h' ∧ ∀ i ∈ done, Has (VolumeCreated cfg i) h') _ ?_ ⟨rfl, hg₁, hh₁, by simp⟩)
  · intro _ s₂ h₂ hq
    obtain ⟨rfl, hg₂, hh₂, hd₂⟩ := hq
    exact ⟨hg₂, ha₁, hh₂, hd₂⟩
  · intro done image rest s₁ h₂ _ hq
    obtain ⟨rfl, hg₂, hh₂, hd₂⟩ := hq
    apply wp_seq (wp_lookupVolume hg₂ (hp.extend hh₂))
    intro volInfo s₁ h₃ hq
    obtain ⟨rfl, hg₃, hh₃⟩ := hq
    have hh := hh₂.trans hh₃
    have hl (sizeGb : ℕ) (name : String) : Law .cold cfg s₁.ctx.plan h₃
        (.createVolumeFromRbd cfg.pool image sizeGb name) :=
      (law_forward rfl).2
        ⟨hg₃.clean, fun _ => hp.extend hh, fun i hi => (hd i hi).extend hh⟩
    apply wp_seq (wp_await_plain hg₃ rfl (hl _ _) rfl (fun _ => ha₁))
    intro volumeId _ _ hq
    obtain ⟨rfl, rfl, hgo, -⟩ := hq
    exact ⟨rfl, hgo rfl, prefix_snoc hh _,
      forall_mem_snoc (fun i hi => (hd₂ i hi).extend hh₃) ⟨_, _, volumeId, rfl⟩⟩

theorem wp_stepBgp (hg : Going .cold cfg p s h) (hp : PreflightPassed cfg p h)
    (ha : Armed s) (hd : ∀ i ∈ p.images, Has (Promoted cfg i) h) :
    wp stepBgp
      (fun _ s' h' => Going .cold cfg p s' h' ∧ Armed s' ∧ h <+: h' ∧
        ∀ pfx ∈ p.prefixes, Has (Announced pfx) h')
      (stopped .cold cfg p) s h := by
  rw [stepBgp]
  apply wp_seq (wp_transition hg rfl (fun _ => ha))
  intro _ s₁ _ hq
  obtain ⟨hg₁, hr₁, rfl⟩ := hq
  have hh₁ : h <+: h ++ [⟨.transition .run .bgp 85, .ok ()⟩] := List.prefix_append _ _
  have ha₁ := ha.congr hr₁
  have hplan := hg₁.plan
  subst hplan
  rw [wp_bind, wp_read, wp_ite]
  constructor
  · intro hips
    exact ⟨hg₁, ha₁, hh₁, by simp [prefixes_of_no_ips hips]⟩
  · intro _
    apply wp_seq (wp_handoff hg₁ (hp.extend hh₁) ha₁
      (fun i hi => (hd i hi).extend hh₁))
    intro _ s₂ h₂ hq
    obtain ⟨rfl, hg₂, hh₂, hann⟩ := hq
    rw [MigrationEngine.registerRollback, wp_modify]
    refine ⟨hg₂.register _, ?_, hh₁.trans hh₂, hann⟩
    exact ha₁.imp (List.mem_append_left _) (List.mem_append_left _)

theorem sound_body (ctx : MigrationContext) : Sound .cold cfg (body cfg) ctx := by
  apply @sound_of_steps .cold cfg ctx
  intro p s₁ h₁ hg₁ hp₁ hu₁
  rw [steps]
  apply wp_seq (wp_stepDisk hg₁ hp₁ hu₁)
  intro _ s₂ h₂ hq
  obtain ⟨hg₂, ha₂, hh₂, hpr₂⟩ := hq
  have hp₂ := hp₁.extend hh₂
  apply wp_seq (wp_stepCutover hg₂ hp₂ ha₂ hpr₂)
  intro _ s₃ h₃ hq
  obtain ⟨hg₃, ha₃, hh₃, hcr₃⟩ := hq
  have hp₃ := hp₂.extend hh₃
  have hpr₃ : ∀ i ∈ p.images, Has (Promoted cfg i) h₃ := fun i hi => (hpr₂ i hi).extend hh₃
  apply wp_seq (wp_stepBgp hg₃ hp₃ ha₃ hpr₃)
  intro _ s₄ h₄ hq
  obtain ⟨hg₄, ha₄, hh₄, han₄⟩ := hq
  have hrel : Relocated .cold cfg p h₄ :=
    ⟨hp₃.extend hh₄, fun i hi => (hpr₃ i hi).extend hh₄,
      fun _ i hi => (hcr₃ i hi).extend hh₄, han₄, by simp⟩
  exact wp_ending hg₄ ha₄ hrel

end NovaFederation.ColdMigrationEngine
