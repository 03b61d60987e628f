import NovaFederation.Clusters

/-!
# Where the images are primary

The destination promotes an image only after the source has demoted it, and in a run with a
destination client nothing but a rollback handler promotes it on the source again. So an image
is primary on both clusters exactly when a handler takes back an image that the destination
has already been given, and it is primary on neither when a demotion loop is cut short.
-/

namespace NovaFederation
open History
variable {kind : MigrationType} {cfg : Settings} {p : Plan} {h pre post : Trace}
  {image : String} {e : CallEvent}

theorem demoted_before_dest_promotion (hr : Respects (Law kind cfg p) h)
    (hh : h = pre ++ e :: post) (he : PeerPromoted cfg .dest image e) :
    p.hasClient = true ∧ Has (Demoted cfg image) pre := by
  obtain ⟨response, rfl, -⟩ := he
  obtain ⟨-, -, -, -, hcl, hi, hd⟩ := forward_clean hr hh rfl
  exact ⟨hcl, hd image hi⟩

/-- Without a client the forward loop promotes through the engine's own Ceph client; with one,
only handlers do. -/
theorem source_promotion_forced (hr : Respects (Law kind cfg p) h) (hc : p.hasClient = true)
    (hs : Has (SourcePromoted cfg image) h) : Has (ForcePromoted cfg image) h := by
  obtain ⟨a, ha, hs⟩ := hs
  obtain ⟨pre, post, hh⟩ := List.append_of_mem ha
  rcases hs with ⟨force, rfl⟩ | ⟨response, rfl, -⟩
  · cases force with
    | true => exact ⟨_, ha, rfl⟩
    | false =>
      obtain ⟨-, -, -, hno, -⟩ := forward_clean hr hh rfl
      simp [hc] at hno
  · obtain ⟨-, -, hpeer, -⟩ := forward_clean hr hh rfl
    cases hpeer

/-- At no moment is an image of the pool primary on both clusters. -/
def NoSplitBrain (cfg : Settings) (run : Run) : Prop :=
  Throughout (fun pre => ∀ image, ¬ (primaries pre .source cfg.pool image = true ∧
    primaries pre .dest cfg.pool image = true)) run.trace

/-- A handler promoted an image on the source that the destination had been given. -/
def TakenBack (cfg : Settings) (run : Run) (image : String) : Prop :=
  Has (PeerPromoted cfg .dest image) run.trace ∧ Has (ForcePromoted cfg image) run.trace

theorem no_split_brain_iff_not_takenBack (kind : MigrationType) (cfg : Settings)
    (ctx : MigrationContext) (O : World) :
    NoSplitBrain cfg (kind.migrate cfg ctx O) ↔
      ∀ image, ¬ TakenBack cfg (kind.migrate cfg ctx O) image := by
  have hr := law_run kind cfg ctx O
  generalize kind.migrate cfg ctx O = run at hr ⊢
  constructor
  · intro hsafe image hq
    obtain ⟨⟨d, hdm, hd⟩, ⟨f, hfm, rfl⟩⟩ := hq
    have hdf : d.call.isForward = true := by
      obtain ⟨response, rfl, -⟩ := hd
      rfl
    obtain ⟨pre, post, hh, hpre⟩ := forward_first hr hdm hfm hdf rfl
    apply hsafe (pre ++ [⟨.promote cfg.pool image true, .ok ()⟩]) ⟨post, by simp [hh]⟩ image
    constructor
    · exact source_primary_of_promoted (.inl ⟨true, rfl⟩) (by simp [Has])
    · exact dest_primary_iff.2 (has_append.2 (.inl ⟨d, hpre, hd⟩))
  · intro hsafe pre hpre image hq
    obtain ⟨hsrc, hdst⟩ := hq
    have hrp : Respects (Law kind cfg _) pre := hr.restrict hpre
    have hd := dest_primary_iff.1 hdst
    obtain ⟨a, d, b, hab, hdp, -⟩ := hd.first
    obtain ⟨hc, hdem⟩ := demoted_before_dest_promotion hrp hab hdp
    obtain ⟨m, hm, hdm⟩ : Has (Demoted cfg image) pre := by
      rw [hab]
      exact hdem.append _
    obtain ⟨u, v, huv⟩ := List.append_of_mem hm
    have hns : ¬ Has (SourcePromoted cfg image) v := by
      intro hs
      have hs' : Has (SourcePromoted cfg image) pre := by
        rw [huv, ← List.singleton_append, ← List.append_assoc]
        exact has_append.2 (.inr hs)
      have hf := source_promotion_forced hrp hc hs'
      exact hsafe image ⟨hd.extend hpre, hf.extend hpre⟩
    rw [huv, source_demoted_of_unpromoted hdm hns] at hsrc
    cases hsrc

/-- When a step raises although the destination has an image already, either the failure is not
recorded or every forced promotion of the image raises. -/
def AcceptedStay (kind : MigrationType) (cfg : Settings) (ctx : MigrationContext) (O : World) :
    Prop :=
  ∀ e s₀ h₀, BodyRaises kind cfg ctx O e s₀ h₀ →
    ∀ image, Has (PeerPromoted cfg .dest image) h₀ → (O h₀ (.fail e.message)).isOk = true →
      ∀ a ∈ (kind.migrate cfg ctx O).trace, a.call = .promote cfg.pool image true →
        a.reply.isOk = false

theorem no_split_brain_iff (kind : MigrationType) (cfg : Settings) (ctx : MigrationContext)
    (O : World) : NoSplitBrain cfg (kind.migrate cfg ctx O) ↔ AcceptedStay kind cfg ctx O := by
  rw [no_split_brain_iff_not_takenBack]
  constructor
  · intro hsafe e s₀ h₀ hb image hacc hok a ha hc
    rcases hb.ends with ⟨-, -, hrb⟩ | ⟨x, hO, -⟩
    · obtain ⟨t, htrace, -⟩ := hrb.tail
      obtain ⟨c, r⟩ := a
      obtain rfl : c = _ := hc
      cases r with
      | error x => rfl
      | ok v =>
        refine absurd ⟨?_, ⟨_, ha, rfl⟩⟩ (hsafe image)
        rw [htrace]
        exact hacc.append _
    · rw [hO] at hok
      cases hok
  · intro hstay image hq
    obtain ⟨hacc, f, hf, rfl⟩ := hq
    rcases forward_or_raises kind cfg ctx O with hall | ⟨e, s₀, h₀, hb⟩
    · have hfw := hall _ hf
      cases hfw
    · rcases hb.ends with ⟨hO, -, hrb⟩ | ⟨x, -, hun⟩
      · have hacc₀ : Has (PeerPromoted cfg .dest image) h₀ := by
          obtain ⟨d, hd, response, rfl, hr⟩ := hacc
          exact ⟨_, hrb.forward_mem hd rfl, response, rfl, hr⟩
        have hfalse := hstay e s₀ h₀ hb image hacc₀ (by rw [hO]; rfl) _ hf rfl
        cases hfalse
      · obtain ⟨x, htrace⟩ := hun.tail
        rw [htrace] at hf
        rcases List.mem_append.1 hf with hf | hf
        · have hfw := hun.stopped.forward _ hf
          cases hfw
        · simp at hf

/-- Two volumes are demoted, the second promotion fails, and both are taken back. -/
def secondPromotionRaises : World
  | h, .promoteRBDImage peer pool image =>
    if image = "volume-b" then .error ⟨.other, "unavailable"⟩
    else cooperative twoVolumes h (.promoteRBDImage peer pool image)
  | h, c => cooperative twoVolumes h c

theorem split_brain_after_partial_promotion :
    ¬ NoSplitBrain settings
      (MigrationType.cold.migrate settings (connected .cold) secondPromotionRaises) := by
  intro hsafe
  exact hsafe _ List.prefix_rfl "volume-a" (by decide)

/-! ### Storage compensation -/

def Call.isRecovery : Call → Bool
  | .transition _ _ _ => true
  | .fail _ => true
  | .promote _ _ force => force
  | _ => false

def RecoverySucceeds (run : Run) : Prop :=
  ∀ e ∈ run.trace, e.call.isRecovery = true → e.reply.isOk = true

instance (run : Run) : Decidable (RecoverySucceeds run) :=
  inferInstanceAs
    (Decidable (∀ e ∈ run.trace, e.call.isRecovery = true → e.reply.isOk = true))

def StorageCompensated (cfg : Settings) (run : Run) : Prop :=
  run.result = .ok false →
    ∀ image ∈ run.state.ctx.rbdImages, primaries run.trace .source cfg.pool image = true

/-- A wait or a demotion raised after an image had been demoted. -/
def CutShort (run : Run) : Prop := Has DemoteReturned run.trace ∧ Has SyncFailed run.trace

theorem Demoted.returned (he : Demoted cfg image e) : DemoteReturned e := ⟨cfg.pool, image, he⟩

theorem SyncFailed.forward (he : SyncFailed e) : e.call.isForward = true := by
  rcases he with ⟨_, _, _, _, _, rfl⟩ | ⟨_, _, _, rfl⟩ <;> rfl

theorem unpromoted_before_sync_failure (hr : Respects (Law kind cfg p) h)
    (hh : h = pre ++ e :: post) (he : SyncFailed e) : ¬ Has PromoteIssued pre := by
  rcases he with ⟨_, _, _, _, _, rfl⟩ | ⟨_, _, _, rfl⟩
  · obtain ⟨-, -, hn⟩ := forward_clean hr hh rfl
    exact hn
  · obtain ⟨-, -, -, -, -, hn, -⟩ := forward_clean hr hh rfl
    exact hn

/-- After a failed demotion loop the only promotions are those of a registered handler. -/
theorem promotion_after_sync_failure (hr : Respects (Law kind cfg p) h) (hf : Has SyncFailed h)
    (hs : Has (SourcePromoted cfg image) h) : Has (ForcePromoted cfg image) h := by
  obtain ⟨f, hfm, hf⟩ := hf
  obtain ⟨a, ham, hs⟩ := hs
  have hissued : PromoteIssued a := by
    rcases hs with ⟨force, rfl⟩ | ⟨response, rfl, -⟩
    · exact .inr ⟨_, _, _, rfl⟩
    · exact .inl ⟨_, _, _, rfl⟩
  have hne : a ≠ f := by
    rintro rfl
    rcases hf with ⟨_, _, _, _, _, rfl⟩ | ⟨_, _, _, rfl⟩ <;> simp [PromoteIssued] at hissued
  by_cases hfa : a.call.isForward = true
  · rcases mem_order ham hfm hne with ⟨pre, post, hh, hpre⟩ | ⟨pre, post, hh, hpre⟩
    · obtain ⟨hcl, -⟩ := forward_clean hr hh hfa
      exact absurd ⟨f, hpre, hf⟩ hcl.not_syncFailed
    · exact absurd ⟨a, hpre, hissued⟩ (unpromoted_before_sync_failure hr hh hf)
  · rcases hs with ⟨force, rfl⟩ | ⟨response, rfl, -⟩
    · cases force with
      | true => exact ⟨_, ham, rfl⟩
      | false => exact absurd rfl hfa
    · exact absurd rfl hfa

/-- A forced promotion is the work of one of the two handlers that concern the disks. -/
theorem RolledBack.armed {error : String} {s₀ s : EngineState} {h₀ : Trace}
    (hb : RolledBack kind cfg error s₀ h₀ s h)
    (hf : Has (ForcePromoted cfg image) h) : Armed s₀ := by
  obtain ⟨a, ha, rfl⟩ := hf
  obtain ⟨t, rfl, hi, -⟩ := hb.tail
  rw [Armed, ← hb.rollbacks]
  rcases List.mem_append.1 ha with ha | ha
  · have hfw := hb.stopped.forward _ ha
    cases hfw
  · rcases List.mem_cons.1 ha with ha | ha
    · cases ha
    · obtain ⟨rb, hrb, hi⟩ := hi _ ha
      obtain ⟨rfl | rfl, -⟩ | ⟨_, -, _, -, hc | hc⟩ | ⟨_, _, -, hc⟩ := hi.call_cases
      · exact .inl hrb
      · exact .inr hrb
      · cases hc
      · cases hc
      · cases hc

theorem RolledBack.reinstated {error : String} {s₀ s : EngineState} {h₀ : Trace}
    (hb : RolledBack kind cfg error s₀ h₀ s h) (ha : Armed s₀)
    (hw : ∀ e ∈ h, e.call.isRecovery = true → e.reply.isOk = true)
    (hi : image ∈ s.ctx.rbdImages) : primaries h .source cfg.pool image = true := by
  obtain ⟨t, rfl, hti, htr⟩ := hb.tail
  have hforce : Has (ForceAttempted cfg image) t := by
    rw [Armed, ← hb.rollbacks] at ha
    rcases ha with ha | ha
    · exact htr _ ha (.inl rfl) image hi
    · exact htr _ ha (.inr rfl) image hi
  obtain ⟨a, hat, hf⟩ := hforce
  obtain ⟨u, v, rfl⟩ := List.append_of_mem hat
  have hok : a.reply.isOk = true := hw a (by simp) (by rw [hf]; rfl)
  have hp : SourcePromoted cfg image a := by
    obtain ⟨c, r⟩ := a
    obtain rfl : c = _ := hf
    cases r with
    | error x => cases hok
    | ok v => exact .inl ⟨true, rfl⟩
  have hd : ¬ Has (Demoted cfg image) v := by
    intro hq
    obtain ⟨d, hd, rfl⟩ := hq
    obtain ⟨rb, -, hi⟩ := hti _ (List.mem_append_right u (List.mem_cons_of_mem a hd))
    cases hi.not_forward
  have hsrc := @source_primary_of_promoted cfg image (h₀ ++ ⟨.fail error, .ok ()⟩ :: u) v a hp hd
  simpa using hsrc

theorem RolledBack.lost {error : String} {s₀ s : EngineState} {h₀ : Trace}
    (hb : RolledBack kind cfg error s₀ h₀ s h) (hd : Has DemoteReturned h)
    (hf : Has SyncFailed h) :
    ∃ image ∈ s.ctx.rbdImages, primaries h .source cfg.pool image = false := by
  obtain ⟨d, hdm, pool, image, rfl⟩ := hd
  obtain ⟨pre, post, hh⟩ := List.append_of_mem hdm
  obtain ⟨-, -, rfl, hi, -⟩ := forward_clean hb.law hh rfl
  have hf₀ : Has SyncFailed h₀ := by
    obtain ⟨f, hfm, hf⟩ := hf
    exact ⟨f, hb.forward_mem hfm hf.forward, hf⟩
  have hno : ¬ Has (SourcePromoted cfg image) post := by
    intro hs
    have hs' : Has (SourcePromoted cfg image) h := by
      rw [hh, ← List.singleton_append, ← List.append_assoc]
      exact has_append.2 (.inr hs)
    exact hb.stopped.unarmed hf₀ (hb.armed (promotion_after_sync_failure hb.law hf hs'))
  refine ⟨image, hi, ?_⟩
  rw [hh]
  exact source_demoted_of_unpromoted rfl hno

theorem RolledBack.kept {error : String} {s₀ s : EngineState} {h₀ : Trace}
    (hb : RolledBack kind cfg error s₀ h₀ s h)
    (hw : ∀ e ∈ h, e.call.isRecovery = true → e.reply.isOk = true)
    (hno : ¬ (Has DemoteReturned h ∧ Has SyncFailed h)) (hi : image ∈ s.ctx.rbdImages) :
    primaries h .source cfg.pool image = true := by
  by_cases hd : Has (Demoted cfg image) h
  · obtain ⟨d, hdm, hd⟩ := hd
    have hd₀ : Has DemoteReturned h₀ := by
      refine ⟨d, hb.forward_mem hdm ?_, hd.returned⟩
      rw [hd]
      rfl
    rcases hb.stopped.compensable hd₀ with ha | hsf
    · exact hb.reinstated ha hw hi
    · have hsf' : Has SyncFailed h := by
        obtain ⟨t, rfl, -⟩ := hb.tail
        exact hsf.append _
      exact absurd ⟨⟨d, hdm, hd.returned⟩, hsf'⟩ hno
  · exact source_primary_of_undemoted hd

theorem storage_compensated_iff (kind : MigrationType) (cfg : Settings) (ctx : MigrationContext)
    (O : World) (hw : RecoverySucceeds (kind.migrate cfg ctx O)) :
    StorageCompensated cfg (kind.migrate cfg ctx O) ↔ ¬ CutShort (kind.migrate cfg ctx O) := by
  have hrep := report kind cfg ctx O
  generalize kind.migrate cfg ctx O = run at hw hrep
  obtain ⟨result, s, h⟩ := run
  simp only [CutShort]
  dsimp only at hrep ⊢
  constructor
  · rintro hcomp ⟨hd, hsf⟩
    rcases result with x | _ | _
    · obtain ⟨error, _, _, hu⟩ := hrep
      obtain ⟨x, rfl⟩ := hu.tail
      have hok := hw ⟨.fail error, .error x⟩ (by simp) rfl
      cases hok
    · obtain ⟨error, s₀, h₀, hb⟩ := hrep
      obtain ⟨image, hi, hlost⟩ := hb.lost hd hsf
      have hkept := hcomp rfl image hi
      dsimp only at hkept
      rw [hlost] at hkept
      cases hkept
    · exact absurd hsf (Done.clean (Finished.done hrep)).not_syncFailed
  · rintro hno rfl image hi
    obtain ⟨error, s₀, h₀, hb⟩ := hrep
    exact hb.kept hw hno hi

theorem storage_compensated_after_partial_promotion :
    StorageCompensated settings
        (MigrationType.cold.migrate settings (connected .cold) secondPromotionRaises) ↔
      ¬ CutShort (MigrationType.cold.migrate settings (connected .cold) secondPromotionRaises) :=
  storage_compensated_iff .cold settings (connected .cold) secondPromotionRaises (by decide)

def secondDemotionRaises : World
  | h, .demote pool image =>
    if image = "volume-b" then .error ⟨.cephError, "rbd mirror image demote"⟩
    else cooperative twoVolumes h (.demote pool image)
  | h, c => cooperative twoVolumes h c

theorem storage_lost_by_partial_demotion :
    RecoverySucceeds
        (MigrationType.cold.migrate settings (connected .cold) secondDemotionRaises) ∧
      ¬ StorageCompensated settings
        (MigrationType.cold.migrate settings (connected .cold) secondDemotionRaises) := by
  refine ⟨by decide, fun hcomp => ?_⟩
  have hlost := hcomp rfl "volume-a" (by decide)
  revert hlost
  decide

end NovaFederation
