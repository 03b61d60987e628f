import NovaFederation.Compute
import NovaFederation.OpenStackClient

/-!
# Demotion of the images of a stopped VM

What the engine has learned of the power status of the VM is a fold of its trace: `get_vm` answers
the status, and `stop_vm` returns only once it is `SHUTOFF`. The engine demotes nothing before it
has learned that, and what it learns is what Nova answered last.
-/

namespace NovaFederation
open Coroutine History MigrationEngine
variable {cfg : Settings} {ctx : MigrationContext} {O : World} {nova : Trace → NovaWorld}
  {s : EngineState} {h : Trace} {e : CallEvent}

/-! ### The client -/

namespace OpenStackClient

theorem statuses_snoc (h : NovaTrace) (vmId : String) (server : Server) :
    (statuses (h ++ [⟨.getServer vmId, .ok (some server)⟩])).getLast? = some server.status := by
  rw [statuses, filterMap_snoc_some toldStatus rfl]
  exact List.getLast?_concat

theorem wp_getVm (vmId : String) :
    wp (getVm vmId) (fun vm _ h => (statuses h).getLast? = some vm.status) (fun _ _ _ => True)
      () [] := by
  rw [getVm, wp_bind, wp_perform]
  refine ⟨fun answer => ?_, fun _ => trivial⟩
  cases answer with
  | none => trivial
  | some server =>
    have hquiet : ∀ r, (statuses ([] ++ [⟨.getServer vmId, .ok (some server)⟩] ++
        [⟨.floatingIps server.id, r⟩])).getLast? = some server.status := by
      intro r
      rw [statuses, filterMap_snoc_none toldStatus rfl]
      exact statuses_snoc [] vmId server
    dsimp only
    rw [wp_bind, wp_tryCatch, wp_perform]
    cases server.flavorId with
    | error e => exact ⟨fun _ => trivial, fun _ => trivial⟩
    | ok flavorId => exact ⟨fun v => hquiet (.ok v), fun x => hquiet (.error x)⟩

theorem wp_waitLoop (vmId target : String) (timeout elapsed : ℕ) (h : NovaTrace) :
    wp (waitLoop vmId target timeout elapsed) (fun _ _ h => (statuses h).getLast? = some target)
      (fun _ _ _ => True) () h := by
  fun_induction waitLoop vmId target timeout elapsed generalizing h with
  | case1 elapsed hlt ih =>
    rw [wp_bind, wp_perform]
    refine ⟨fun answer => ?_, fun _ => trivial⟩
    cases answer with
    | none => trivial
    | some server =>
      dsimp only
      rw [wp_ite]
      refine ⟨?_, fun _ => ?_⟩
      · rintro rfl
        exact statuses_snoc h vmId server
      · rw [wp_ite]
        refine ⟨fun _ => trivial, fun _ => ?_⟩
        rw [wp_bind, wp_perform]
        exact ⟨fun _ => ih _, fun _ => trivial⟩
  | case2 elapsed hle => trivial

theorem wp_stopVm (vmId : String) :
    wp (stopVm vmId) (fun _ _ h => (statuses h).getLast? = some "SHUTOFF") (fun _ _ _ => True)
      () [] := by
  rw [stopVm, wp_bind, wp_perform]
  exact ⟨fun _ => wp_waitLoop vmId "SHUTOFF" 120 0 _, fun _ => trivial⟩

end OpenStackClient

/-! ### What the engine has learned -/

def learn (known : Option String) (e : CallEvent) : Option String :=
  match e with
  | ⟨.getVm _, .ok vm⟩ => some vm.status
  | ⟨.getVm _, .error _⟩ => none
  | ⟨.stopVm _, .ok _⟩ => some "SHUTOFF"
  | ⟨.stopVm _, .error _⟩ => none
  | _ => known

def learned (h : Trace) : Option String := replay learn none h

theorem learned_snoc (h : Trace) (e : CallEvent) : learned (h ++ [e]) = learn (learned h) e := by
  rw [learned, replay_append]
  rfl

def Call.asksNova : Call → Bool
  | .getVm _ => true
  | .stopVm _ => true
  | _ => false

def Call.demotes : Call → Bool
  | .demote _ _ => true
  | _ => false

theorem learn_other (he : e.call.asksNova = false) (known : Option String) :
    learn known e = known := by
  unfold learn
  split
  · cases he
  · cases he
  · cases he
  · cases he
  · rfl

/-- An image is demoted when the VM is known to be off. -/
def OffLaw (pre : Trace) (c : Call) : Prop := c.demotes = true → learned pre = some "SHUTOFF"

theorem off_snoc (hr : Respects OffLaw h) (he : e.call.demotes = false) :
    Respects OffLaw (h ++ [e]) :=
  respects_snoc.2 ⟨hr, fun hd => absurd (he.symm.trans hd) (by simp)⟩

structure Known (found : Option VMDetails) (h : Trace) : Prop where
  law : Respects OffLaw h
  status : ∃ vm, found = some vm ∧ learned h = some vm.status ∧
    ColdMigrationEngine.admits vm.status = true

structure Off (h : Trace) : Prop where
  law : Respects OffLaw h
  off : learned h = some "SHUTOFF"

theorem Known.append {found : Option VMDetails} (hk : Known found h)
    (he : e.call.asksNova = false ∧ e.call.demotes = false) : Known found (h ++ [e]) where
  law := off_snoc hk.law he.2
  status := by
    rw [learned_snoc, learn_other he.1]
    exact hk.status

theorem Off.append (ho : Off h) (he : e.call.asksNova = false) : Off (h ++ [e]) where
  law := respects_snoc.2 ⟨ho.law, fun _ => ho.off⟩
  off := by
    rw [learned_snoc, learn_other he]
    exact ho.off

def Aside (c : Call) : Prop := c.asksNova = false ∧ c.demotes = false

theorem wp_known {α : Type} {p : Engine α} (hp : Calls Aside p) (hk : Keeps foundVm p)
    (hf : Known (foundVm s) h) :
    wp p (fun _ s' h' => Known (foundVm s') h') (fun _ _ h' => Respects OffLaw h') s h := by
  apply wp_mono (wp_frame hp hk Known (fun _ _ _ he hq => hq.append he) hf)
  · exact fun _ _ _ hq => hq
  · exact fun _ _ _ hq => hq.law

theorem wp_undemoted {α : Type} {p : Engine α} (hp : Calls (fun c => c.demotes = false) p)
    (hr : Respects OffLaw h) :
    wp p (fun _ _ h' => Respects OffLaw h') (fun _ _ h' => Respects OffLaw h') s h :=
  wp_calls hp (Respects OffLaw) (fun _ _ he hr => off_snoc hr he) hr

theorem aside_transition (st : MigrationState) (progress : ℚ) :
    Calls Aside (transition .run st progress) :=
  .bind (.modify _ _) fun _ => .perform ⟨rfl, rfl⟩

theorem IsStep.undemoted {st : MigrationState} {step : Engine Unit} (hstep : IsStep st step)
    (hdisk : st ≠ .disk) (hcutover : st ≠ .cutover) :
    Calls (fun c => c.demotes = false) step := by
  apply hstep.calls.mono
  intro c hc
  cases c <;> simp_all [Within, Call.within, Call.demotes]

namespace ColdMigrationEngine

theorem wp_stepPreflight_known (hr : Respects OffLaw h) :
    wp (stepPreflight cfg) (fun _ s' h' => Known (foundVm s') h')
      (fun _ _ h' => Respects OffLaw h') s h := by
  rw [stepPreflight, preflight]
  apply wp_seq (wp_undemoted ((aside_transition _ _).mono fun _ hc => hc.2) hr)
  intro _ s₁ h₁ hr₁
  rw [wp_bind, wp_read, wp_bind, wp_perform]
  refine ⟨fun vm => ?_, fun _ => off_snoc hr₁ rfl⟩
  have hr₂ : Respects OffLaw (h₁ ++ [⟨.getVm s₁.ctx.vmId, .ok vm⟩]) := off_snoc hr₁ rfl
  rw [wp_bind, wp_modify, wp_ite]
  refine ⟨fun hadmits => ?_, fun _ => hr₂⟩
  rw [wp_bind, wp_modify, wp_bind, wp_read]
  have hknown : Known (some vm) (h₁ ++ [⟨.getVm s₁.ctx.vmId, .ok vm⟩]) :=
    ⟨hr₂, vm, rfl, by rw [learned_snoc]; rfl, hadmits⟩
  refine wp_known (.forM fun _ _ => ?_) (.forM fun _ => ?_) hknown
  · exact .bind (.perform ⟨rfl, rfl⟩) fun _ => .ite (.pure _ _) (.throw _ _)
  · exact .bind (.perform _ _) fun _ => .ite (.pure _ _) (.throw _ _)

theorem wp_stop_off (hk : Known (foundVm s) h) :
    wp (if s.ctx.vm.any (·.status == "ACTIVE") then await (.stopVm s.ctx.vmId) else pure ())
      (fun _ _ h' => Off h') (fun _ _ h' => Respects OffLaw h') s h := by
  obtain ⟨vm, hvm, hlearned, hadmits⟩ := hk.status
  have hctx : s.ctx.vm = some vm := hvm
  rw [wp_ite, hctx, Option.any_some, beq_iff_eq]
  constructor
  · intro _
    rw [wp_perform]
    refine ⟨fun _ => ⟨off_snoc hk.law rfl, ?_⟩, fun _ => off_snoc hk.law rfl⟩
    rw [learned_snoc]
    rfl
  · intro hne
    have hoff : vm.status = "SHUTOFF" := by
      simpa [admits, hne] using hadmits
    exact ⟨hk.law, hoff ▸ hlearned⟩

theorem wp_stepDisk_off (hk : Known (foundVm s) h) :
    wp (stepDisk cfg) (fun _ _ h' => Respects OffLaw h') (fun _ _ h' => Respects OffLaw h')
      s h := by
  rw [stepDisk]
  apply wp_seq (wp_known (aside_transition _ _) (keeps_transition blind_foundVm.record _ _ _) hk)
  intro _ s₁ h₁ hk₁
  rw [wp_bind, wp_read]
  apply wp_seq (wp_stop_off hk₁)
  intro _ s₂ h₂ ho₂
  have hcalls : Calls (fun c => c.asksNova = false) (do
      s₁.ctx.rbdImages.forM fun image => (do
        let _ ← await (.waitForSync cfg.pool image none 300))
      s₁.ctx.rbdImages.forM fun image => await (.demote cfg.pool image)
      registerRollback .disk
      promoteAll cfg
      transition .run .disk 50) := by
    refine .bind (.forM fun _ _ => .bind (.perform rfl) fun _ => .pure _ _) fun _ =>
      .bind (.forM fun _ _ => .perform rfl) fun _ => .bind (.modify _ _) fun _ => ?_
    refine .bind (.bind (.read _) fun _ => .forM fun _ _ => .ite ?_ (.perform rfl)) fun _ =>
      (aside_transition _ _).mono fun _ hc => hc.1
    exact .bind (.perform rfl) fun _ => .pure _ _
  apply wp_mono (wp_calls hcalls Off (fun _ _ he ho => ho.append he) ho₂)
  · exact fun _ _ _ ho => ho.law
  · exact fun _ _ _ ho => ho.law

theorem undemoted_stepCutover : Calls (fun c => c.demotes = false) (stepCutover cfg) := by
  apply attaching_stepCutover.mono
  intro c hc
  cases c <;> first | rfl | cases hc

theorem wp_body_off (cfg : Settings) (ctx : MigrationContext) :
    wp (body cfg) (fun _ _ h => Respects OffLaw h) (fun _ _ h => Respects OffLaw h)
      (EngineState.init ctx) [] := by
  unfold body steps
  apply wp_seq (wp_stepPreflight_known (respects_nil _))
  intro _ s₁ h₁ hk₁
  rw [wp_bind, wp_read, wp_ite]
  refine ⟨fun _ => hk₁.law, fun _ => ?_⟩
  apply wp_seq (wp_stepDisk_off hk₁)
  intro _ s₂ h₂ hr₂
  apply wp_undemoted ?_ hr₂
  exact .bind undemoted_stepCutover fun _ =>
    .bind (isStep_stepBgp.undemoted (by decide) (by decide)) fun _ =>
    .bind ((isStep_cleanup 95).undemoted (by decide) (by decide)) fun _ =>
    .bind ((aside_transition _ _).mono fun _ hc => hc.2) fun _ => .pure _ _

end ColdMigrationEngine

/-- The handlers demote nothing. -/
theorem off_migrate (cfg : Settings) (ctx : MigrationContext) (O : World) :
    Respects OffLaw (MigrationType.cold.migrate cfg ctx O).trace := by
  apply migrate_of_body .cold (fun _ => Respects OffLaw) (ColdMigrationEngine.wp_body_off cfg ctx)
  intro _ h e he hr
  apply off_snoc hr
  generalize e.call = c at he
  cases c <;> first | rfl | cases he

/-! ### What Nova has answered -/

theorem told_getVm {W : NovaWorld} {vmId : String} {vm : VMDetails}
    (hr : (run W (OpenStackClient.getVm vmId) ()).1 = .ok vm) :
    (statuses (clientTrace W (.getVm vmId))).getLast? = some vm.status :=
  (wp_exec W (OpenStackClient.wp_getVm vmId)).1 _ _ _ (Prod.ext hr rfl)

theorem told_stopVm {W : NovaWorld} {vmId : String}
    (hr : (run W (OpenStackClient.stopVm vmId) ()).1 = .ok ()) :
    (statuses (clientTrace W (.stopVm vmId))).getLast? = some "SHUTOFF" :=
  (wp_exec W (OpenStackClient.wp_stopVm vmId)).1 _ _ _ (Prod.ext hr rfl)

theorem learned_answered (hh : ∀ pre e, pre ++ [e] <+: h → e.reply = onNova nova O pre e.call)
    {status : String} (hl : learned h = some status) :
    (answered nova h).getLast? = some status := by
  induction h using List.reverseRecOn generalizing status with
  | nil => cases hl
  | append_singleton h e ih =>
    have hreply := hh h e List.prefix_rfl
    have ih := fun hl => @ih (fun pre a hpre => hh pre a (hpre.trans (List.prefix_append _ _)))
      status hl
    obtain ⟨c, r⟩ := e
    rw [learned_snoc] at hl
    rw [answered_snoc, List.getLast?_append]
    cases c with
    | getVm vmId =>
      cases r with
      | error x => cases hl
      | ok vm =>
        obtain rfl := Option.some.inj hl
        rw [told_getVm hreply.symm]
        rfl
    | stopVm vmId =>
      cases r with
      | error x => cases hl
      | ok v =>
        obtain rfl := Option.some.inj hl
        rw [told_stopVm hreply.symm]
        rfl
    | _ => exact ih hl

/-- When an image is demoted, the last status that Nova has answered for the VM is `SHUTOFF`. -/
def DemotedOff (nova : Trace → NovaWorld) (pre : Trace) : Call → Prop
  | .demote _ _ => (answered nova pre).getLast? = some "SHUTOFF"
  | _ => True

/-- For every cold migration and every behaviour of Nova during each client call. -/
theorem demotes_stopped (cfg : Settings) (ctx : MigrationContext) (nova : Trace → NovaWorld)
    (O : World) :
    Respects (DemotedOff nova) (MigrationType.cold.migrate cfg ctx (onNova nova O)).trace := by
  intro pre e hpre
  have hoff := off_migrate cfg ctx (onNova nova O) pre e hpre
  obtain ⟨c, r⟩ := e
  cases c with
  | demote pool image =>
    have hreplies : ∀ pre' a, pre' ++ [a] <+: pre → a.reply = onNova nova O pre' a.call :=
      fun pre' a ha => reply_of_run ((ha.trans (List.prefix_append _ _)).trans hpre)
    exact learned_answered hreplies (hoff rfl)
  | _ => trivial

end NovaFederation
