import NovaFederation.EngineFrame
import NovaFederation.Routes
import NovaFederation.StorageSafety

/-!
# Power status and volumes

Two more folds. The disk step stops an active VM and the cutover step registers the volumes on
the destination; no handler starts the VM again or deletes a volume. Volumes are registered only
after the stop has returned, so an active VM is left as it was exactly when it was not stopped.
-/

namespace NovaFederation
open History Coroutine MigrationEngine
variable {cfg : Settings} {ctx : MigrationContext} {O : World} {eff : Effects}
  {status : String} {found : Option VMDetails} {s : EngineState} {h : Trace} {e : CallEvent}

/-- On the power status of the VM, `none` once it is deleted. No engine calls `start_vm`. -/
def powerAct (w : Option String) : Call → Option String
  | .stopVm _ => w.map fun _ => "SHUTOFF"
  | .deleteVm _ => none
  | _ => w

def power (eff : Effects) (status : String) (h : Trace) : Option String :=
  eff.world powerAct (some status) h

/-- On the names of the volumes that are registered on the destination. -/
def volumeAct (w : List String) : Call → List String
  | .createVolumeFromRbd _ _ _ name => w ++ [name]
  | _ => w

def volumes (eff : Effects) (h : Trace) : List String := eff.world volumeAct [] h

def Call.stops : Call → Bool
  | .stopVm _ => true
  | _ => false

def Call.registers : Call → Bool
  | .createVolumeFromRbd _ _ _ _ => true
  | _ => false

def VmStopped (eff : Effects) (e : CallEvent) : Prop := e.call.stops = true ∧ eff.took e = true

def VolumeRegistered (eff : Effects) (e : CallEvent) : Prop :=
  e.call.registers = true ∧ eff.took e = true

instance (eff : Effects) : DecidablePred (VmStopped eff) :=
  fun _ => inferInstanceAs (Decidable (_ ∧ _))

instance (eff : Effects) : DecidablePred (VolumeRegistered eff) :=
  fun _ => inferInstanceAs (Decidable (_ ∧ _))

theorem power_stopped (he : VmStopped eff e) :
    power eff status (h ++ [e]) = (power eff status h).map fun _ => "SHUTOFF" := by
  obtain ⟨c, r⟩ := e
  obtain ⟨hc, ht⟩ := he
  rw [power, Effects.world_snoc, if_pos ht]
  cases c with
  | stopVm vmId => rfl
  | _ => cases hc

theorem power_kept (he : ¬ VmStopped eff e) (hd : ∀ vmId, e.call ≠ .deleteVm vmId) :
    power eff status (h ++ [e]) = power eff status h := by
  obtain ⟨c, r⟩ := e
  rw [power, Effects.world_snoc]
  split_ifs with ht
  · cases c with
    | stopVm vmId => exact absurd ⟨rfl, ht⟩ he
    | deleteVm vmId => exact absurd rfl (hd vmId)
    | _ => rfl
  · rfl

theorem power_eq (hh : ∀ e ∈ h, ∀ vmId, e.call ≠ .deleteVm vmId) :
    (Has (VmStopped eff) h → power eff status h = some "SHUTOFF") ∧
      (¬ Has (VmStopped eff) h → power eff status h = some status) := by
  induction h using List.reverseRecOn with
  | nil => exact ⟨fun hs => absurd hs (not_has_nil _), fun _ => rfl⟩
  | append_singleton h e ih =>
    obtain ⟨hstopped, hkept⟩ := ih fun a ha => hh a (List.mem_append_left _ ha)
    rw [has_snoc]
    by_cases he : VmStopped eff e
    · rw [power_stopped he]
      refine ⟨fun _ => ?_, fun hn => absurd (.inr he) hn⟩
      by_cases hs : Has (VmStopped eff) h
      · rw [hstopped hs]
        rfl
      · rw [hkept hs]
        rfl
    · rw [power_kept he (hh e (by simp))]
      simpa [he] using ⟨hstopped, hkept⟩

theorem volumes_eq_nil_iff : volumes eff h = [] ↔ ¬ Has (VolumeRegistered eff) h := by
  induction h using List.reverseRecOn with
  | nil => exact iff_of_true rfl (not_has_nil _)
  | append_singleton h e ih =>
    rw [has_snoc, not_or, ← ih, volumes, Effects.world_snoc, VolumeRegistered]
    change (if eff.took e = true then volumeAct (volumes eff h) e.call else volumes eff h) = [] ↔ _
    obtain ⟨c, r⟩ := e
    split_ifs with ht
    · cases c <;> simp [volumeAct, Call.registers, ht]
    · simp [ht]

/-! ### When a volume is registered -/

def StopReturned (e : CallEvent) : Prop := ∃ vmId, e = ⟨.stopVm vmId, .ok ()⟩

theorem StopReturned.stopped (he : StopReturned e) : VmStopped eff e := by
  obtain ⟨vmId, rfl⟩ := he
  exact ⟨rfl, eff.of_acknowledged _ rfl⟩

/-- A volume is registered for a VM that has been fetched and, if it was active, stopped. -/
def VolumeLaw (pre : Trace) (c : Call) : Prop :=
  c.registers = true →
    ∃ vm, Has (VmFetched vm) pre ∧ (vm.status = "ACTIVE" → Has StopReturned pre)

structure Found (found : Option VMDetails) (h : Trace) : Prop where
  law : Respects VolumeLaw h
  fetched : ∃ vm, found = some vm ∧ Has (VmFetched vm) h

structure AtRest (found : Option VMDetails) (h : Trace) : Prop where
  law : Respects VolumeLaw h
  atRest : ∃ vm, found = some vm ∧ Has (VmFetched vm) h ∧
    (vm.status = "ACTIVE" → Has StopReturned h)

def foundVm (s : EngineState) : Option VMDetails := s.ctx.vm

theorem blind_foundVm : Blind foundVm := ⟨fun _ _ _ => rfl, fun _ _ _ => rfl⟩

theorem lawful_snoc (hr : Respects VolumeLaw h) (he : e.call.registers = false) :
    Respects VolumeLaw (h ++ [e]) :=
  respects_snoc.2 ⟨hr, fun hc => absurd (he.symm.trans hc) (by simp)⟩

theorem Found.reply (hf : Found found h) (he : e.call.registers = false) :
    Found found (h ++ [e]) where
  law := lawful_snoc hf.law he
  fetched := by
    obtain ⟨vm, hvm, hfetched⟩ := hf.fetched
    exact ⟨vm, hvm, hfetched.append _⟩

theorem AtRest.append (hf : AtRest found h) (hl : VolumeLaw h e.call) :
    AtRest found (h ++ [e]) where
  law := respects_snoc.2 ⟨hf.law, hl⟩
  atRest := by
    obtain ⟨vm, hvm, hfetched, hstop⟩ := hf.atRest
    exact ⟨vm, hvm, hfetched.append _, fun ha => (hstop ha).append _⟩

theorem AtRest.reply (hf : AtRest found h) (he : e.call.registers = false) :
    AtRest found (h ++ [e]) :=
  hf.append fun hc => absurd (he.symm.trans hc) (by simp)

def Unregistering {α : Type} (p : Engine α) : Prop := Calls (fun c => c.registers = false) p

theorem IsStep.unregistering {st : MigrationState} {step : Engine Unit} (hstep : IsStep st step)
    (hst : st ≠ .cutover) : Unregistering step := by
  apply hstep.calls.mono
  intro c hc
  cases c <;> simp_all [Within, Call.within, Call.registers]

theorem unregistering_transition (st : MigrationState) (progress : ℚ) :
    Unregistering (transition .run st progress) :=
  .bind (.modify _ _) fun _ => .perform rfl

theorem wp_lawful {α : Type} {p : Engine α} (hp : Unregistering p) (hr : Respects VolumeLaw h) :
    wp p (fun _ _ h' => Respects VolumeLaw h') (fun _ _ h' => Respects VolumeLaw h') s h :=
  wp_calls hp (Respects VolumeLaw) (fun _ _ he hr => lawful_snoc hr he) hr

theorem wp_found {α : Type} {p : Engine α} (hp : Unregistering p) (hk : Keeps foundVm p)
    (hf : Found (foundVm s) h) :
    wp p (fun _ s' h' => Found (foundVm s') h') (fun _ _ h' => Respects VolumeLaw h') s h := by
  apply wp_mono (wp_frame hp hk Found (fun _ _ _ he hq => hq.reply he) hf)
  · exact fun _ _ _ hq => hq
  · exact fun _ _ _ hq => hq.law

theorem wp_atRest {α : Type} {p : Engine α} (hp : Unregistering p) (hk : Keeps foundVm p)
    (hf : AtRest (foundVm s) h) :
    wp p (fun _ s' h' => AtRest (foundVm s') h') (fun _ _ h' => Respects VolumeLaw h') s h := by
  apply wp_mono (wp_frame hp hk AtRest (fun _ _ _ he hq => hq.reply he) hf)
  · exact fun _ _ _ hq => hq
  · exact fun _ _ _ hq => hq.law

namespace ColdMigrationEngine

theorem wp_stepPreflight_found (ctx : MigrationContext) :
    wp (stepPreflight cfg) (fun _ s' h' => Found (foundVm s') h')
      (fun _ _ h' => Respects VolumeLaw h') (EngineState.init ctx) [] := by
  have hpassed : wp (stepPreflight cfg)
      (fun _ s' h' => Going .cold cfg s'.ctx.plan s' h' ∧ PreflightPassed cfg s'.ctx.plan h' ∧
        Untouched s' h')
      (fun _ s' h' => Stopped .cold cfg s'.ctx.plan s' h') (EngineState.init ctx) [] :=
    @wp_preflight .cold cfg _ _ rfl rfl rfl
  have hstep : IsStep .preflight (stepPreflight cfg) := isStep_preflight _ _
  have hlaw := wp_lawful (s := EngineState.init ctx) (hstep.unregistering (by decide))
    (respects_nil _)
  apply wp_mono (wp_and hpassed hlaw)
  · rintro _ s' h' ⟨⟨-, hp, -⟩, hr⟩
    obtain ⟨vm, hvm, hfetched, -⟩ := hp.attached
    exact ⟨hr, vm, hvm, hfetched⟩
  · exact fun _ _ _ hq => hq.2

theorem wp_stop (hf : Found (foundVm s) h) :
    wp (if s.ctx.vm.any (·.status == "ACTIVE") then await (.stopVm s.ctx.vmId) else pure ())
      (fun _ s' h' => AtRest (foundVm s') h') (fun _ _ h' => Respects VolumeLaw h') s h := by
  obtain ⟨vm, hvm, hfetched⟩ := hf.fetched
  have hctx : s.ctx.vm = some vm := hvm
  rw [wp_ite, hctx, Option.any_some, beq_iff_eq]
  constructor
  · intro _
    rw [wp_perform]
    constructor
    · intro _
      exact ⟨lawful_snoc hf.law rfl, vm, hvm, hfetched.append _,
        fun _ => has_snoc.2 (.inr ⟨_, rfl⟩)⟩
    · exact fun _ => lawful_snoc hf.law rfl
  · intro hne
    exact ⟨hf.law, vm, hvm, hfetched, fun ha => absurd ha hne⟩

theorem wp_stepDisk_atRest (hf : Found (foundVm s) h) :
    wp (stepDisk cfg) (fun _ s' h' => AtRest (foundVm s') h')
      (fun _ _ h' => Respects VolumeLaw h') s h := by
  rw [stepDisk]
  apply wp_seq (wp_found (unregistering_transition _ _)
    (keeps_transition blind_foundVm.record _ _ _) hf)
  intro _ s₁ h₁ hf₁
  rw [wp_bind, wp_read]
  apply wp_seq (wp_stop hf₁)
  intro _ s₂ h₂ hh₂
  apply wp_atRest ?_ ?_ hh₂
  · refine .bind (.forM fun _ _ => .bind (.perform rfl) fun _ => .pure _ _) fun _ =>
      .bind (.forM fun _ _ => .perform rfl) fun _ => .bind (.modify _ _) fun _ => ?_
    refine .bind (.bind (.read _) fun _ => .forM fun _ _ => .ite ?_ (.perform rfl)) fun _ =>
      unregistering_transition _ _
    exact .bind (.perform rfl) fun _ => .pure _ _
  · refine .bind (.forM fun _ => .bind (.perform _ _) fun _ => .pure _ _) fun _ =>
      .bind (.forM fun _ => .perform _ _) fun _ => ?_
    exact .bind (keeps_registerRollback blind_foundVm (by simp)) fun _ =>
      .bind keeps_promoteAll fun _ => keeps_transition blind_foundVm.record _ _ _

theorem wp_stepCutover_atRest (hf : AtRest (foundVm s) h) :
    wp (stepCutover cfg) (fun _ _ h' => Respects VolumeLaw h')
      (fun _ _ h' => Respects VolumeLaw h') s h := by
  rw [stepCutover]
  apply wp_seq (wp_atRest (unregistering_transition _ _)
    (keeps_transition blind_foundVm.record _ _ _) hf)
  intro _ s₁ h₁ hh₁
  obtain ⟨vm, hvm, -, -⟩ := hh₁.atRest
  have hctx : s₁.ctx.vm = some vm := hvm
  rw [wp_bind, wp_read, hctx]
  apply wp_weaken (wp_forM (fun _ s' h' => AtRest (foundVm s') h') _ ?_ hh₁)
  · exact fun _ _ _ hq => hq.law
  · intro _ image _ s₂ h₂ _ hh₂
    have hlookup : Unregistering (lookupVolume vm image) := by
      unfold lookupVolume
      split
      · exact .tryCatch (.bind (.perform rfl) fun _ => .pure _ _) fun _ => .pure _ _
      · exact .pure _ _
    apply wp_seq (wp_atRest hlookup (keeps_lookupVolume vm image) hh₂)
    intro volInfo s₃ h₃ hh₃
    have hl {pool name : String} {sizeGb : ℕ} :
        VolumeLaw h₃ (.createVolumeFromRbd pool image sizeGb name) := by
      intro _
      obtain ⟨vm, -, hfetched, hstop⟩ := hh₃.atRest
      exact ⟨vm, hfetched, hstop⟩
    rw [wp_bind, wp_perform]
    exact ⟨fun _ => hh₃.append hl, fun _ => (hh₃.append hl).law⟩

theorem wp_body_volumes (ctx : MigrationContext) :
    wp (body cfg) (fun _ _ h => Respects VolumeLaw h) (fun _ _ h => Respects VolumeLaw h)
      (EngineState.init ctx) [] := by
  unfold body steps
  apply wp_seq (wp_stepPreflight_found ctx)
  intro _ s₁ h₁ hf₁
  rw [wp_bind, wp_read, wp_ite]
  refine ⟨fun _ => hf₁.law, fun _ => ?_⟩
  apply wp_seq (wp_stepDisk_atRest hf₁)
  intro _ s₂ h₂ hh₂
  apply wp_seq (wp_stepCutover_atRest hh₂)
  intro _ s₃ h₃ hr₃
  apply wp_lawful ?_ hr₃
  exact .bind (isStep_stepBgp.unregistering (by decide)) fun _ =>
    .bind ((isStep_cleanup 95).unregistering (by decide)) fun _ =>
    .bind (unregistering_transition _ _) fun _ => .pure _ _

end ColdMigrationEngine

/-! ### Runs -/

def seenStatus : CallEvent → Option String
  | ⟨.getVm _, .ok vm⟩ => some vm.status
  | _ => none

def HadStatus (status : String) (run : Run) : Prop :=
  ∀ seen ∈ run.trace.filterMap seenStatus, seen = status

instance (status : String) (run : Run) : Decidable (HadStatus status run) :=
  inferInstanceAs (Decidable (∀ seen ∈ run.trace.filterMap seenStatus, seen = status))

theorem HadStatus.of_fetched {run : Run} {vm : VMDetails} (hs : HadStatus status run)
    (hf : Has (VmFetched vm) run.trace) : vm.status = status := by
  obtain ⟨e, he, vmId, rfl⟩ := hf
  exact hs _ (List.mem_filterMap.2 ⟨_, he, rfl⟩)

/-- The VM has its power status back and no volume is left on the destination. -/
def ComputeCompensated (eff : Effects) (status : String) (run : Run) : Prop :=
  power eff status run.trace = some status ∧ volumes eff run.trace = []

/-- When every record can be written, a VM that has been deleted is not rolled back. -/
theorem RolledBack.not_deleted {kind : MigrationType} {error : String} {s₀ : EngineState}
    {h₀ : Trace} (hb : RolledBack kind cfg error s₀ h₀ s h)
    (hw : ∀ e ∈ h, e.call.isRecovery = true → e.reply.isOk = true) :
    ∀ e ∈ h, ∀ vmId, e.call ≠ .deleteVm vmId := by
  intro e he vmId hc
  have he₀ := hb.forward_mem he (by rw [hc]; rfl)
  obtain ⟨d, hd, progress, x, rfl⟩ := hb.stopped.deleted ⟨e, he₀, vmId, hc⟩
  obtain ⟨t, rfl, -⟩ := hb.tail
  have hok := hw _ (List.mem_append_left _ hd) rfl
  cases hok

theorem stopped_of_registered {run : Run} {error : String} {s₀ : EngineState} {h₀ : Trace}
    (hb : RolledBack .cold cfg error s₀ h₀ run.state run.trace) (hl : Respects VolumeLaw h₀)
    (hs : HadStatus "ACTIVE" run) (hr : Has (VolumeRegistered eff) run.trace) :
    Has (VmStopped eff) run.trace := by
  obtain ⟨e, he, hreg, -⟩ := hr
  have hforward : e.call.isForward = true := by
    generalize e.call = c at hreg
    cases c <;> first | rfl | cases hreg
  obtain ⟨pre, post, hh⟩ := List.append_of_mem (hb.forward_mem he hforward)
  obtain ⟨vm, hf, hstop⟩ := hl.at_split hh hreg
  have hpre : pre <+: run.trace := by
    obtain ⟨t, ht, -⟩ := hb.tail
    rw [ht, hh, List.append_assoc]
    exact List.prefix_append _ _
  obtain ⟨a, ha, hret⟩ := (hstop (hs.of_fetched (hf.extend hpre))).extend hpre
  exact ⟨a, ha, hret.stopped⟩

theorem compute_compensated_iff (cfg : Settings) (ctx : MigrationContext) (O : World)
    (eff : Effects) (status : String)
    (hres : (MigrationType.cold.migrate cfg ctx O).result = .ok false)
    (hw : RecoverySucceeds (MigrationType.cold.migrate cfg ctx O))
    (hs : HadStatus status (MigrationType.cold.migrate cfg ctx O))
    (ha : status = "ACTIVE" ∨ status = "SHUTOFF") :
    ComputeCompensated eff status (MigrationType.cold.migrate cfg ctx O) ↔
      (status = "ACTIVE" → ¬ Has (VmStopped eff) (MigrationType.cold.migrate cfg ctx O).trace) ∧
        (status = "SHUTOFF" →
          ¬ Has (VolumeRegistered eff) (MigrationType.cold.migrate cfg ctx O).trace) := by
  obtain ⟨e, s₀, h₀, hraise, hb⟩ := rolledBack_of_false hres
  have hl : Respects VolumeLaw h₀ :=
    (wp_exec O (ColdMigrationEngine.wp_body_volumes ctx)).2 e s₀ h₀ hraise
  generalize MigrationType.cold.migrate cfg ctx O = run at hw hs hb ⊢
  obtain ⟨hstopped, hkept⟩ := @power_eq eff status run.trace (hb.not_deleted hw)
  rw [ComputeCompensated, volumes_eq_nil_iff]
  constructor
  · rintro ⟨hpower, hvolumes⟩
    refine ⟨?_, fun _ => hvolumes⟩
    rintro rfl hst
    rw [hstopped hst] at hpower
    exact absurd hpower (by decide)
  · rintro ⟨hactive, hshutoff⟩
    rcases ha with rfl | rfl
    · have hst := hactive rfl
      exact ⟨hkept hst, fun hr => hst (stopped_of_registered hb hl hs hr)⟩
    · refine ⟨?_, hshutoff rfl⟩
      by_cases hst : Has (VmStopped eff) run.trace
      · exact hstopped hst
      · exact hkept hst

def syncTimesOut : World
  | _, .waitForSync _ _ _ _ => .error ⟨.cephSyncTimeout, "RBD image did not sync"⟩
  | h, c => cooperative { twoVolumes with status := "SHUTOFF" } h c

theorem compute_compensated_after_sync_timeout :
    ComputeCompensated .atomic "SHUTOFF"
      (MigrationType.cold.migrate settings (connected .cold) syncTimesOut) :=
  (compute_compensated_iff settings (connected .cold) syncTimesOut .atomic "SHUTOFF"
    (by decide +kernel) (by decide +kernel) (by decide +kernel) (.inr rfl)).2 (by decide +kernel)

/-- An active VM is stopped and its first volume registered when the second registration fails. -/
def secondVolumeRaises : World
  | h, .createVolumeFromRbd pool image sizeGb name =>
    if image = "volume-b" then .error ⟨.other, "quota exceeded"⟩
    else cooperative twoVolumes h (.createVolumeFromRbd pool image sizeGb name)
  | h, c => cooperative twoVolumes h c

theorem not_compute_compensated :
    RecoverySucceeds
        (MigrationType.cold.migrate settings (connected .cold) secondVolumeRaises) ∧
      (MigrationType.cold.migrate settings (connected .cold) secondVolumeRaises).result =
        .ok false ∧
      HadStatus "ACTIVE"
        (MigrationType.cold.migrate settings (connected .cold) secondVolumeRaises) ∧
      ¬ ComputeCompensated .atomic "ACTIVE"
        (MigrationType.cold.migrate settings (connected .cold) secondVolumeRaises) := by
  refine ⟨by decide +kernel, by decide +kernel, by decide +kernel, ?_⟩
  rintro ⟨-, hvolumes⟩
  revert hvolumes
  decide +kernel

end NovaFederation
