import NovaFederation.EngineFrame
import NovaFederation.Routes

/-!
# How far a handoff comes

No step but that of the routes touches a route. There the announcements come first, and one that
raises ends the handoff. The withdrawals come after all of them, each is asked for whatever the
others said, and none can raise. Only then may the handler be registered.
-/

namespace NovaFederation
open History Coroutine MigrationEngine
variable {kind : MigrationType} {cfg : Settings} {ctx : MigrationContext} {s : EngineState}
  {h : Trace} {hop : Option String} {prefixes : List String} {e : CallEvent}

def Call.isRoute : Call → Bool
  | .announce _ => true
  | .withdraw _ => true
  | .announceIP _ _ => true
  | .withdrawIP _ _ => true
  | _ => false

/-- The source is asked only when the destination announces everything, and a rollback announces
a prefix again only when the destination has let go of it. -/
def RouteLaw (prefixes : List String) (pre : Trace) : Call → Prop
  | .withdrawIP peer _ => peer = .source ∧ (∀ pfx ∈ prefixes, Has (Announced pfx) pre) ∧
      ∀ e ∈ pre, ∀ pfx, e.call ≠ .withdraw pfx
  | .announceIP peer pfx => peer = .source ∧ Has (Withdrawn pfx) pre
  | _ => True

structure HandedOver (prefixes : List String) (hop : Option String) (client : Bool) (h : Trace) :
    Prop where
  law : Respects (RouteLaw prefixes) h
  calls : ∀ e ∈ h, HandoffCall prefixes hop e.call
  announced : ∀ pfx ∈ prefixes, Has (Announced pfx) h
  unfailed : ¬ Has AnnounceFailed h
  asked : client = true → ∀ pfx ∈ prefixes, Has (WithdrawAsked pfx) h

structure Interrupted (prefixes : List String) (hop : Option String) (h : Trace) : Prop where
  law : Respects (RouteLaw prefixes) h
  calls : ∀ e ∈ h, HandoffCall prefixes hop e.call
  failed : Has AnnounceFailed h
  unasked : ∀ pfx, ¬ Has (WithdrawAsked pfx) h

theorem forall_snoc {P : CallEvent → Prop} (hh : ∀ a ∈ h, P a) (he : P e) :
    ∀ a ∈ h ++ [e], P a := by
  intro a ha
  rcases List.mem_append.1 ha with ha | ha
  · exact hh a ha
  · rwa [List.mem_singleton.1 ha]

theorem handoffCall_of_unrouted {c : Call} (hc : c.isRoute = false) :
    HandoffCall prefixes hop c := by
  cases c <;> trivial

theorem routeLaw_of_unrouted {c : Call} (hc : c.isRoute = false) : RouteLaw prefixes h c := by
  cases c <;> trivial

theorem respects_of_unrouted (hh : ∀ e ∈ h, e.call.isRoute = false) :
    Respects (RouteLaw prefixes) h :=
  fun _ e hpre => routeLaw_of_unrouted (hh e (hpre.subset (by simp)))

theorem HandedOver.reply {client : Bool} (hh : HandedOver prefixes hop client h)
    (he : e.call.isRoute = false) : HandedOver prefixes hop client (h ++ [e]) where
  law := respects_snoc.2 ⟨hh.law, routeLaw_of_unrouted he⟩
  calls := forall_snoc hh.calls (handoffCall_of_unrouted he)
  announced := fun pfx hp => (hh.announced pfx hp).append _
  unfailed := by
    rw [has_snoc]
    rintro (hf | ⟨route, x, rfl⟩)
    · exact hh.unfailed hf
    · cases he
  asked := fun hc pfx hp => (hh.asked hc pfx hp).append _

/-! ### The handoff -/

structure Announcing (prefixes done : List String) (hop : Option String) (h : Trace) : Prop where
  law : Respects (RouteLaw prefixes) h
  calls : ∀ e ∈ h, HandoffCall prefixes hop e.call
  announced : ∀ pfx ∈ done, Has (Announced pfx) h
  unfailed : ¬ Has AnnounceFailed h
  unasked : ∀ pfx, ¬ Has (WithdrawAsked pfx) h

theorem wp_announce {done rest : List String} {pfx : String}
    (hp : prefixes = done ++ pfx :: rest) (ha : Announcing prefixes done hop h) :
    wp (await (.announce ⟨pfx, hop⟩))
      (fun _ s' h' => s' = s ∧ Announcing prefixes (done ++ [pfx]) hop h')
      (fun _ s' h' => s' = s ∧ Interrupted prefixes hop h') s h := by
  have hmem : pfx ∈ prefixes := by simp [hp]
  have hlaw (r : Except PyException Unit) :
      Respects (RouteLaw prefixes) (h ++ [⟨.announce ⟨pfx, hop⟩, r⟩]) :=
    respects_snoc.2 ⟨ha.law, trivial⟩
  have hasked (r : Except PyException Unit) (q : String) :
      ¬ Has (WithdrawAsked q) (h ++ [⟨.announce ⟨pfx, hop⟩, r⟩]) := by
    rw [has_snoc]
    rintro (hw | hw)
    · exact ha.unasked q hw
    · cases hw
  rw [wp_perform]
  constructor
  · intro v
    refine ⟨rfl, hlaw _, forall_snoc ha.calls ⟨hmem, rfl⟩, ?_, ?_, hasked _⟩
    · exact forall_mem_snoc ha.announced ⟨hop, rfl⟩
    · rw [has_snoc]
      rintro (hf | ⟨route, x, hf⟩)
      · exact ha.unfailed hf
      · cases hf
  · intro x
    exact ⟨rfl, hlaw _, forall_snoc ha.calls ⟨hmem, rfl⟩, has_snoc.2 (.inr ⟨_, x, rfl⟩),
      hasked _⟩

structure Withdrawing (prefixes done : List String) (hop : Option String) (client : Bool)
    (h : Trace) : Prop where
  law : Respects (RouteLaw prefixes) h
  calls : ∀ e ∈ h, HandoffCall prefixes hop e.call
  announced : ∀ pfx ∈ prefixes, Has (Announced pfx) h
  unfailed : ¬ Has AnnounceFailed h
  asked : client = true → ∀ pfx ∈ done, Has (WithdrawAsked pfx) h

theorem Withdrawing.asks {done : List String} {client : Bool} {pfx : String}
    (hw : Withdrawing prefixes done hop client h) (r : Except PyException BGPResponse) :
    Withdrawing prefixes (done ++ [pfx]) hop client (h ++ [⟨.withdrawIP .source pfx, r⟩]) where
  law := by
    refine respects_snoc.2 ⟨hw.law, rfl, hw.announced, ?_⟩
    intro e he p hp
    have hc := hw.calls e he
    rw [hp] at hc
    exact hc
  calls := forall_snoc hw.calls rfl
  announced := fun q hq => (hw.announced q hq).append _
  unfailed := by
    rw [has_snoc]
    rintro (hf | ⟨route, x, hf⟩)
    · exact hw.unfailed hf
    · cases hf
  asked := fun hc => forall_mem_snoc (hw.asked hc) rfl

theorem wp_withdrawIP {done : List String} {pfx : String}
    {client : Option (CNFControlStub .source)}
    (hw : Withdrawing prefixes done hop client.isSome h) :
    wp (try
        let _ ← CNFControlStub.withdrawIP client pfx
      catch _ => pure ())
      (fun _ s' h' => s' = s ∧ Withdrawing prefixes (done ++ [pfx]) hop client.isSome h')
      (fun _ _ _ => False) s h := by
  rw [wp_tryCatch, wp_bind]
  cases client with
  | none => exact ⟨rfl, hw.law, hw.calls, hw.announced, hw.unfailed, nofun⟩
  | some stub =>
    rw [CNFControlStub.withdrawIP, wp_perform]
    exact ⟨fun _ => ⟨rfl, hw.asks _⟩, fun _ => ⟨rfl, hw.asks _⟩⟩

theorem wp_announcing (ha : Announcing prefixes [] hop h) :
    wp (prefixes.forM fun pfx => await (.announce ⟨pfx, hop⟩))
      (fun _ s' h' => s' = s ∧ Announcing prefixes prefixes hop h')
      (fun _ s' h' => s' = s ∧ Interrupted prefixes hop h') s h := by
  apply wp_forM (fun done s' h' => s' = s ∧ Announcing prefixes done hop h') prefixes ?_ ⟨rfl, ha⟩
  rintro done pfx rest _ h₁ hxs ⟨rfl, ha₁⟩
  exact wp_announce hxs ha₁

theorem wp_withdrawing {client : Option (CNFControlStub .source)}
    (hw : Withdrawing prefixes [] hop client.isSome h) :
    wp (prefixes.forM fun pfx => do
        try
          let _ ← CNFControlStub.withdrawIP client pfx
        catch _ => pure ())
      (fun _ s' h' => s' = s ∧ Withdrawing prefixes prefixes hop client.isSome h')
      (fun _ _ _ => False) s h := by
  apply wp_forM (fun done s' h' => s' = s ∧ Withdrawing prefixes done hop client.isSome h')
    prefixes ?_ ⟨rfl, hw⟩
  rintro done pfx rest _ h₁ - ⟨rfl, hw₁⟩
  exact wp_withdrawIP hw₁

theorem announcing_start (hh : ∀ e ∈ h, e.call.isRoute = false) :
    Announcing prefixes [] hop h where
  law := respects_of_unrouted hh
  calls := fun e he => handoffCall_of_unrouted (hh e he)
  announced := by simp
  unfailed := by
    rintro ⟨e, he, route, x, rfl⟩
    cases hh _ he
  unasked := by
    rintro pfx ⟨⟨c, r⟩, he, hc⟩
    obtain rfl : c = _ := hc
    cases hh _ he

theorem wp_handedOver {client : Option (CNFControlStub .source)}
    (hh : ∀ e ∈ h, e.call.isRoute = false) :
    wp (BGPManager.handoff prefixes hop client)
      (fun _ s' h' => s' = s ∧ HandedOver prefixes hop client.isSome h')
      (fun _ s' h' => s' = s ∧
        (Interrupted prefixes hop h' ∨ HandedOver prefixes hop client.isSome h')) s h := by
  rw [BGPManager.handoff]
  apply wp_seq (wp_mono (wp_announcing (announcing_start hh)) (fun _ _ _ hq => hq)
    (fun _ _ _ hq => ⟨hq.1, .inl hq.2⟩))
  rintro _ s h₁ ⟨rfl, ha⟩
  have hwith : Withdrawing prefixes [] hop client.isSome h₁ :=
    ⟨ha.law, ha.calls, ha.announced, ha.unfailed, by simp⟩
  apply wp_seq (wp_mono (wp_withdrawing hwith) (fun _ _ _ hq => hq) (fun _ _ _ hq => hq.elim))
  rintro _ s h₂ ⟨rfl, hw⟩
  have hdone : HandedOver prefixes hop client.isSome h₂ := ⟨hw.1, hw.2, hw.3, hw.4, hw.5⟩
  have hwaits : Calls (fun c => c.isRoute = false)
      (prefixes.forM fun pfx => await (.waitConvergence pfx)) := .forM fun _ _ => .perform rfl
  have hkeeps : Keeps id (prefixes.forM fun pfx => await (.waitConvergence pfx)) :=
    .forM fun _ => .perform _ _
  apply wp_mono (wp_frame hwaits hkeeps (fun s' h' => s' = s ∧
    HandedOver prefixes hop client.isSome h') (fun _ _ _ he hq => ⟨hq.1, hq.2.reply he⟩)
    ⟨rfl, hdone⟩)
  · exact fun _ _ _ hq => hq
  · exact fun _ _ _ hq => ⟨hq.1, .inr hq.2⟩

/-! ### The body of a run -/

/-- What the registration of a handoff's rollback captured. -/
def Rollback.routed : Rollback → Option (List String)
  | .bgp prefixes => some prefixes
  | _ => none

/-- What a handoff needs of the engine, and the rollbacks registered for routes. -/
def supplies (s : EngineState) :
    Options × Option (CNFControlStub .source) × List (List String) :=
  (s.ctx.options, s.ctx.sourceGrpcClient, s.rollbacks.filterMap Rollback.routed)

def routePrefixes (s : EngineState) : List String := MigrationEngine.prefixes s.ctx

theorem oblivious_supplies : Oblivious supplies := by
  refine ⟨⟨fun _ _ _ => rfl, ?_⟩, fun _ _ _ _ => rfl⟩
  intro s fn hfn
  have hnone : fn.routed = none := by
    cases fn with
    | bgp prefixes => exact absurd rfl (hfn prefixes)
    | _ => rfl
  simp [supplies, List.filterMap_append, hnone]

theorem blind_routePrefixes : Blind routePrefixes := ⟨fun _ _ _ => rfl, fun _ _ _ => rfl⟩

def MigrationType.nextHop (ctx : MigrationContext) : MigrationType → Option String
  | .cold => some ""
  | .live => ctx.options.get "dest_next_hop" ""

structure Ready (ctx : MigrationContext) (supply : Options × Option (CNFControlStub .source) ×
    List (List String)) (h : Trace) : Prop where
  supply : supply = (ctx.options, ctx.sourceGrpcClient, [])
  unrouted : ∀ e ∈ h, e.call.isRoute = false

theorem not_announceFailed_of_unrouted (hh : ∀ e ∈ h, e.call.isRoute = false) :
    ¬ Has AnnounceFailed h := by
  rintro ⟨e, he, route, x, rfl⟩
  cases hh _ he

/-- An exception of an announcement leaves no rollback behind. -/
def CutOff (hop : Option String) (s : EngineState) (h : Trace) : Prop :=
  Has AnnounceFailed h →
    Interrupted (routePrefixes s) hop h ∧ s.rollbacks.filterMap Rollback.routed = []

def Unrouted (step : Engine Unit) : Prop := Calls (fun c => c.isRoute = false) step

theorem IsStep.unrouted {st : MigrationState} {step : Engine Unit} (hstep : IsStep st step)
    (hst : st ≠ .bgp) : Unrouted step := by
  apply hstep.calls.mono
  intro c hc
  cases c <;> simp_all [Within, Call.within, Call.isRoute]

theorem unrouted_transition (st : MigrationState) (progress : ℚ) :
    Unrouted (transition .run st progress) :=
  .bind (.modify _ _) fun _ => .perform rfl

theorem wp_before_handoff {step : Engine Unit} (hstep : Unrouted step)
    (hk : Keeps supplies step) (hr : Ready ctx (supplies s) h) :
    wp step (fun _ s' h' => Ready ctx (supplies s') h') (fun _ s' h' => CutOff hop s' h') s h := by
  apply wp_mono (wp_frame hstep hk (Ready ctx) ?_ hr)
  · exact fun _ _ _ hq => hq
  · exact fun _ _ _ hq hf => absurd hf (not_announceFailed_of_unrouted hq.unrouted)
  · exact fun _ _ _ he hq => ⟨hq.supply, forall_snoc hq.unrouted he⟩

theorem wp_after_handoff {step : Engine Unit} {client : Bool} (hstep : Unrouted step)
    (hk : Keeps routePrefixes step) (hh : HandedOver (routePrefixes s) hop client h) :
    wp step (fun _ s' h' => HandedOver (routePrefixes s') hop client h')
      (fun _ s' h' => CutOff hop s' h') s h := by
  apply wp_mono (wp_frame hstep hk (fun prefixes h => HandedOver prefixes hop client h) ?_ hh)
  · exact fun _ _ _ hq => hq
  · exact fun _ _ _ hq hf => absurd hf hq.unfailed
  · exact fun _ _ _ he hq => hq.reply he

theorem wp_ending_routes {progress : ℚ} {client : Bool}
    (hh : HandedOver (routePrefixes s) hop client h) :
    wp (do
        cleanup progress
        transition .run .done 100
        pure true)
      (fun b s' h' => b = true → HandedOver (routePrefixes s') hop client h')
      (fun _ s' h' => CutOff hop s' h') s h := by
  have hp := blind_routePrefixes
  apply wp_seq (wp_after_handoff ((isStep_cleanup progress).unrouted (by decide))
    (keeps_cleanup hp.record _) hh)
  intro _ s₁ h₁ hh₁
  apply wp_seq (wp_after_handoff (unrouted_transition .done 100)
    (keeps_transition hp.record .run .done 100) hh₁)
  exact fun _ _ _ hh₂ _ => hh₂

theorem handedOver_of_no_ips {client : Bool} (hips : s.ctx.vmIps.isEmpty = true)
    (hr : Ready ctx (supplies s) h) : HandedOver (routePrefixes s) hop client h := by
  have hnil : routePrefixes s = [] := by
    rw [routePrefixes, MigrationEngine.prefixes, List.isEmpty_iff.1 hips, List.map_nil]
  rw [hnil]
  exact ⟨respects_of_unrouted hr.unrouted, fun e he => handoffCall_of_unrouted (hr.unrouted e he),
    by simp, not_announceFailed_of_unrouted hr.unrouted, by simp⟩

theorem Ready.wp_handoff (hr : Ready ctx (supplies s) h) :
    wp (BGPManager.handoff (routePrefixes s) hop s.ctx.sourceGrpcClient)
      (fun _ s' h' => s' = s ∧ HandedOver (routePrefixes s) hop ctx.sourceGrpcClient.isSome h')
      (fun _ s' h' => CutOff hop s' h') s h := by
  obtain ⟨-, hclient⟩ := Prod.ext_iff.1 hr.supply
  obtain ⟨hclient, hrbs⟩ := Prod.ext_iff.1 hclient
  have hsome : s.ctx.sourceGrpcClient = ctx.sourceGrpcClient := hclient
  rw [← hsome]
  apply wp_mono (wp_handedOver hr.unrouted)
  · exact fun _ _ _ hq => hq
  · rintro _ s' h' ⟨rfl, hcut | hh⟩ hf
    · exact ⟨hcut, hrbs⟩
    · exact absurd hf hh.unfailed

namespace ColdMigrationEngine

theorem wp_stepBgp_routes (hr : Ready ctx (supplies s) h) :
    wp stepBgp (fun _ s' h' => HandedOver (routePrefixes s') (MigrationType.cold.nextHop ctx)
        ctx.sourceGrpcClient.isSome h')
      (fun _ s' h' => CutOff (MigrationType.cold.nextHop ctx) s' h') s h := by
  rw [stepBgp]
  apply wp_seq (wp_before_handoff (unrouted_transition _ _)
    (keeps_transition oblivious_supplies.record _ _ _) hr)
  intro _ s₁ h₁ hr₁
  rw [wp_bind, wp_read, wp_ite]
  constructor
  · intro hips
    exact handedOver_of_no_ips hips hr₁
  · intro _
    apply wp_seq hr₁.wp_handoff
    rintro _ s₁ h₂ ⟨rfl, hh⟩
    exact hh

theorem wp_body_routes (ctx : MigrationContext) :
    wp (body cfg) (fun b s h => b = true → HandedOver (routePrefixes s)
        (MigrationType.cold.nextHop ctx) ctx.sourceGrpcClient.isSome h)
      (fun _ s h => CutOff (MigrationType.cold.nextHop ctx) s h) (EngineState.init ctx) [] := by
  have hf := oblivious_supplies
  have hr : Ready ctx (supplies (EngineState.init ctx)) [] := ⟨rfl, by simp⟩
  unfold body steps
  apply wp_seq (wp_before_handoff ((isStep_preflight _ _).unrouted (by decide))
    (keeps_preflight hf _ _) hr)
  intro _ s₁ h₁ hr₁
  rw [wp_bind, wp_read, wp_ite]
  refine ⟨fun _ => nofun, fun _ => ?_⟩
  apply wp_seq (wp_before_handoff (isStep_stepDisk.unrouted (by decide))
    (keeps_stepDisk hf.toBlind) hr₁)
  intro _ s₂ h₂ hr₂
  apply wp_seq (wp_before_handoff (isStep_stepCutover.unrouted (by decide))
    (keeps_stepCutover hf.record) hr₂)
  intro _ s₃ h₃ hr₃
  apply wp_seq (wp_stepBgp_routes hr₃)
  exact fun _ _ _ hh₄ => wp_ending_routes hh₄

end ColdMigrationEngine

namespace LiveMigrationEngine

theorem wp_stepBgp_routes (hr : Ready ctx (supplies s) h) :
    wp stepBgp (fun _ s' h' => HandedOver (routePrefixes s') (MigrationType.live.nextHop ctx)
        ctx.sourceGrpcClient.isSome h')
      (fun _ s' h' => CutOff (MigrationType.live.nextHop ctx) s' h') s h := by
  rw [stepBgp]
  apply wp_seq (wp_before_handoff (unrouted_transition _ _)
    (keeps_transition oblivious_supplies.record _ _ _) hr)
  intro _ s₁ h₁ hr₁
  rw [wp_bind, wp_read, wp_ite]
  constructor
  · intro hips
    exact handedOver_of_no_ips hips hr₁
  · intro _
    have hoptions : s₁.ctx.options = ctx.options := (Prod.ext_iff.1 hr₁.supply).1
    rw [hoptions]
    apply wp_weaken hr₁.wp_handoff
    rintro _ s₁ h₂ ⟨rfl, hh⟩
    exact hh

theorem wp_body_routes (ctx : MigrationContext) :
    wp (body cfg) (fun b s h => b = true → HandedOver (routePrefixes s)
        (MigrationType.live.nextHop ctx) ctx.sourceGrpcClient.isSome h)
      (fun _ s h => CutOff (MigrationType.live.nextHop ctx) s h) (EngineState.init ctx) [] := by
  have hf := oblivious_supplies
  have hr : Ready ctx (supplies (EngineState.init ctx)) [] := ⟨rfl, by simp⟩
  unfold body steps
  apply wp_seq (wp_before_handoff ((isStep_preflight _ _).unrouted (by decide))
    (keeps_preflight hf _ _) hr)
  intro _ s₁ h₁ hr₁
  rw [wp_bind, wp_read, wp_ite]
  refine ⟨fun _ => nofun, fun _ => ?_⟩
  apply wp_seq (wp_before_handoff (isStep_stepDiskSync.unrouted (by decide))
    (keeps_stepDiskSync hf.record) hr₁)
  intro _ s₂ h₂ hr₂
  apply wp_seq (wp_before_handoff (isStep_stepMemory.unrouted (by decide))
    (keeps_stepMemory hf.toBlind) hr₂)
  intro _ s₃ h₃ hr₃
  apply wp_seq (wp_before_handoff (isStep_stepCutover.unrouted (by decide))
    (keeps_stepCutover hf.toBlind) hr₃)
  intro _ s₄ h₄ hr₄
  apply wp_seq (wp_stepBgp_routes hr₄)
  exact fun _ _ _ hh₅ => wp_ending_routes hh₅

end LiveMigrationEngine

theorem wp_body_routes (kind : MigrationType) (cfg : Settings) (ctx : MigrationContext) :
    wp (kind.body cfg) (fun b s h => b = true → HandedOver (routePrefixes s) (kind.nextHop ctx)
        ctx.sourceGrpcClient.isSome h)
      (fun _ s h => CutOff (kind.nextHop ctx) s h) (EngineState.init ctx) [] := by
  cases kind with
  | cold => exact ColdMigrationEngine.wp_body_routes ctx
  | live => exact LiveMigrationEngine.wp_body_routes ctx

end NovaFederation
