import Mathlib.Data.List.Forall2
import NovaFederation.Handoff
import NovaFederation.IpAddress

/-!
# The prefixes of the addresses of a VM

Both engines hand over `f"{ip}/32"` for each address. Such a prefix is the host of its address in
the family whose addresses have 32 bits, and 2^96 hosts in the other one. Nova reports addresses
of both.
-/

namespace NovaFederation
open History Coroutine MigrationEngine
variable {kind : MigrationType} {cfg : Settings} {ctx : MigrationContext} {s : EngineState}
  {h : Trace} {e : CallEvent} {ip : String}

/-! ### Hosts -/

/-- The prefix denotes the address and nothing else. -/
def IsHostRoute (ip pfx : String) : Prop :=
  ∃ a p, IpAddress.read ip.toList = some a ∧ IpPrefix.read pfx.toList = some p ∧
    ∀ b, p.Covers b ↔ b = a

def IsV4 (ip : String) : Prop := ∃ bits, IpAddress.read ip.toList = some (.v4 bits)

theorem read_hostPrefix {a : IpAddress} (ha : IpAddress.read ip.toList = some a) :
    ∃ hle, IpPrefix.read (s!"{ip}/32").toList = some ⟨a, 32, hle⟩ := by
  have htext : (s!"{ip}/32").toList = ip.toList ++ '/' :: ['3', '2'] := String.toList_append
  have hle : 32 ≤ a.width := by
    cases a with
    | v4 bits => exact Nat.le_refl _
    | v6 bits => exact (by decide : 32 ≤ 128)
  refine ⟨hle, ?_⟩
  rw [htext]
  exact IpPrefix.read_append ha (by decide) hle

theorem isHostRoute_iff (ip : String) : IsHostRoute ip s!"{ip}/32" ↔ IsV4 ip := by
  constructor
  · rintro ⟨a, p, ha, hp, hhost⟩
    obtain ⟨hle, hread⟩ := read_hostPrefix ha
    obtain rfl := Option.some.inj (hp.symm.trans hread)
    have hwidth : 32 = a.width := (IpPrefix.covers_iff_eq_iff _).1 hhost
    cases a with
    | v4 bits => exact ⟨bits, ha⟩
    | v6 bits => exact absurd hwidth (by decide : 32 ≠ 128)
  · rintro ⟨bits, ha⟩
    obtain ⟨hle, hread⟩ := read_hostPrefix ha
    exact ⟨_, _, ha, hread, (IpPrefix.covers_iff_eq_iff _).2 rfl⟩

theorem isHostRoutes_iff (ips : List String) :
    List.Forall₂ IsHostRoute ips (ips.map (s!"{·}/32")) ↔ ∀ ip ∈ ips, IsV4 ip := by
  rw [List.forall₂_map_right_iff, List.forall₂_same]
  exact forall₂_congr fun ip _ => isHostRoute_iff ip

theorem prefixes_ne_nil : prefixes ctx ≠ [] ↔ ctx.vmIps ≠ [] := by
  rw [prefixes, ne_eq, List.map_eq_nil_iff]

theorem hostPrefix_injective : Function.Injective fun ip : String => s!"{ip}/32" := by
  intro a b hab
  have htext := congrArg String.toList hab
  have hleft : (s!"{a}/32").toList = a.toList ++ "/32".toList := String.toList_append
  have hright : (s!"{b}/32").toList = b.toList ++ "/32".toList := String.toList_append
  rw [hleft, hright] at htext
  exact String.toList_inj.1 (List.append_cancel_right htext)

/-! ### What a run is told and what it announces -/

/-- `vm.floating_ips or vm.ips`, of a VM that the engine admits. -/
def told (kind : MigrationType) : CallEvent → Option (List String)
  | ⟨.getVm _, .ok vm⟩ =>
    if kind.admits vm.status then
      some (if vm.floatingIps.isEmpty then vm.ips else vm.floatingIps)
    else none
  | _ => none

/-- The addresses of the VM, as Nova has reported them last. -/
def vmAddresses (kind : MigrationType) (ctx : MigrationContext) (h : Trace) : List String :=
  ((h.filterMap (told kind)).getLast?).getD ctx.vmIps

def announcing : CallEvent → Option String
  | ⟨.announce route, _⟩ => some route.pfx
  | _ => none

def announcements (h : Trace) : List String := h.filterMap announcing

def Call.entersBgp : Call → Bool
  | .transition _ .bgp _ => true
  | _ => false

def BgpEntered (e : CallEvent) : Prop := e.call.entersBgp = true ∧ e.reply.isOk = true

instance : DecidablePred BgpEntered := fun _ => inferInstanceAs (Decidable (_ ∧ _))

/-- The list that `handoff` is given, if a run comes to call it. -/
def handedOver (ctx : MigrationContext) (h : Trace) : Option (List String) :=
  if Has BgpEntered h ∧ ctx.vmIps ≠ [] then some (prefixes ctx) else none

def Call.addresses : Call → Bool
  | .getVm _ => true
  | .announce _ => true
  | .transition _ .bgp _ => true
  | _ => false

/-- The engine goes by the addresses that it was told, and has come to announce `done`. The step of
the routes has begun or not. -/
structure Addressing (kind : MigrationType) (ctx : MigrationContext) (entered : Prop)
    (done ips : List String) (h : Trace) : Prop where
  ips : ips = vmAddresses kind ctx h
  announced : announcements h = done
  entered : Has BgpEntered h ↔ entered

/-- What has been announced belongs to the prefixes of the engine, and something has been just if
`handoff` was called. -/
structure Addressed (kind : MigrationType) (ctx : MigrationContext) (s : EngineState)
    (h : Trace) : Prop where
  ips : s.ctx.vmIps = vmAddresses kind ctx h
  announced : announcements h <+: prefixes s.ctx
  reached : announcements h ≠ [] ↔ Has BgpEntered h ∧ s.ctx.vmIps ≠ []

theorem vmAddresses_snoc_none (he : told kind e = none) :
    vmAddresses kind ctx (h ++ [e]) = vmAddresses kind ctx h := by
  rw [vmAddresses, filterMap_snoc_none (told kind) he]
  rfl

theorem vmAddresses_snoc_some {ips : List String} (he : told kind e = some ips) :
    vmAddresses kind ctx (h ++ [e]) = ips := by
  rw [vmAddresses, filterMap_snoc_some (told kind) he, List.getLast?_concat]
  rfl

theorem told_eq_none (he : e.call.addresses = false) : told kind e = none := by
  unfold told
  split
  · cases he
  · rfl

theorem announcing_eq_none (he : e.call.addresses = false) : announcing e = none := by
  unfold announcing
  split
  · cases he
  · rfl

theorem not_bgpEntered (he : e.call.addresses = false) : ¬ BgpEntered e := by
  rintro ⟨henters, -⟩
  unfold Call.entersBgp at henters
  split at henters
  · next heq =>
    rw [heq] at he
    cases he
  · cases henters

theorem has_bgpEntered_snoc (he : ¬ BgpEntered e) :
    Has BgpEntered (h ++ [e]) ↔ Has BgpEntered h := by
  rw [has_snoc, or_iff_left he]

variable {entered : Prop}

theorem Addressing.other {done ips : List String} (ha : Addressing kind ctx entered done ips h)
    (he : e.call.addresses = false) : Addressing kind ctx entered done ips (h ++ [e]) where
  ips := ha.ips.trans (vmAddresses_snoc_none (told_eq_none he)).symm
  announced := (filterMap_snoc_none announcing (announcing_eq_none he) h).trans ha.announced
  entered := (has_bgpEntered_snoc (not_bgpEntered he)).trans ha.entered

def addressView (s : EngineState) : List String := s.ctx.vmIps

theorem blind_addressView : Blind addressView := ⟨fun _ _ _ => rfl, fun _ _ _ => rfl⟩

/-- How far the announcements are: none before the step of the routes, and then some of the
prefixes if there are any. -/
structure HandingOver (entered : Prop) (done ips : List String) : Prop where
  prefixed : done <+: ips.map (s!"{·}/32")
  reached : done ≠ [] ↔ entered ∧ ips ≠ []

theorem handingOver_nil (ips : List String) : HandingOver False [] ips :=
  ⟨List.nil_prefix, by simp⟩

theorem handingOver_all (ips : List String) : HandingOver True (ips.map (s!"{·}/32")) ips :=
  ⟨List.prefix_rfl, by simp⟩

theorem Addressing.addressed {done : List String}
    (ha : Addressing kind ctx entered done (addressView s) h)
    (hdone : HandingOver entered done (addressView s)) : Addressed kind ctx s h where
  ips := ha.ips
  announced := by
    rw [ha.announced]
    exact hdone.prefixed
  reached := by
    rw [ha.announced, ha.entered]
    exact hdone.reached

/-! ### The steps -/

theorem IsStep.unaddressed {st : MigrationState} {step : Engine Unit} (hstep : IsStep st step)
    (hpreflight : st ≠ .preflight) (hbgp : st ≠ .bgp) :
    Calls (fun c => c.addresses = false) step := by
  apply hstep.calls.mono
  intro c hc
  cases c with
  | transition task state progress =>
    have hstate : state = st := (of_decide_eq_true hc).1
    have hne : state ≠ .bgp := hstate ▸ hbgp
    simp [Call.addresses, hne]
  | _ => simp_all [Within, Call.within, Call.addresses]

theorem unaddressed_transition {st : MigrationState} (hbgp : st ≠ .bgp) (progress : ℚ) :
    Calls (fun c => c.addresses = false) (transition .run st progress) :=
  .bind (.modify _ _) fun _ => .perform (by simp [Call.addresses, hbgp])

theorem wp_addressing {α : Type} {p : Engine α} {done : List String}
    (hp : Calls (fun c => c.addresses = false) p) (hk : Keeps addressView p)
    (hdone : HandingOver entered done (addressView s))
    (ha : Addressing kind ctx entered done (addressView s) h) :
    wp p (fun _ s' h' => addressView s' = addressView s ∧
        Addressing kind ctx entered done (addressView s') h')
      (fun _ s' h' => Addressed kind ctx s' h') s h := by
  apply wp_mono (wp_frame hp hk
    (fun ips h' => ips = addressView s ∧ Addressing kind ctx entered done ips h')
    (fun _ _ _ he hq => ⟨hq.1, hq.2.other he⟩) ⟨rfl, ha⟩)
  · exact fun _ s' _ hq => hq
  · intro _ s' h' hq
    refine hq.2.addressed ?_
    rw [hq.1]
    exact hdone

theorem wp_preflight_addressing (kind : MigrationType) {refusal : String → VMDetails → String}
    (ha : Addressing kind ctx False [] (addressView s) h) :
    wp (preflight cfg kind.admits refusal)
      (fun _ s' h' => Addressing kind ctx False [] (addressView s') h')
      (fun _ s' h' => Addressed kind ctx s' h') s h := by
  rw [preflight]
  apply wp_seq (wp_addressing (unaddressed_transition (by decide) _)
    (keeps_transition blind_addressView.record _ _ _) (handingOver_nil _) ha)
  rintro _ s₁ h₁ ⟨-, ha₁⟩
  have hquiet : ∀ r, Has BgpEntered (h₁ ++ [⟨.getVm s₁.ctx.vmId, r⟩]) ↔ False :=
    fun r => (has_bgpEntered_snoc (by simp [BgpEntered, Call.entersBgp])).trans ha₁.entered
  rw [wp_bind, wp_read, wp_bind, wp_perform]
  constructor
  · intro vm
    have hannounced : announcements (h₁ ++ [⟨.getVm s₁.ctx.vmId, .ok vm⟩]) = [] :=
      (filterMap_snoc_none announcing rfl h₁).trans ha₁.announced
    rw [wp_bind, wp_modify, wp_ite]
    constructor
    · intro hadmits
      have htold : told kind ⟨.getVm s₁.ctx.vmId, .ok vm⟩ =
          some (if vm.floatingIps.isEmpty then vm.ips else vm.floatingIps) := if_pos hadmits
      rw [wp_bind, wp_modify, wp_bind, wp_read]
      refine wp_weaken (wp_addressing (.forM fun _ _ => ?_) (.forM fun _ => ?_)
        (handingOver_nil _) ⟨(vmAddresses_snoc_some htold).symm, hannounced, hquiet _⟩)
        fun _ _ _ hq => hq.2
      · exact .bind (.perform rfl) fun _ => .ite (.pure _ _) (.throw _ _)
      · exact .bind (.perform _ _) fun _ => .ite (.pure _ _) (.throw _ _)
    · intro hrefused
      have htold : told kind ⟨.getVm s₁.ctx.vmId, .ok vm⟩ = none := if_neg hrefused
      exact Addressing.addressed
        ⟨ha₁.ips.trans (vmAddresses_snoc_none htold).symm, hannounced, hquiet _⟩ (handingOver_nil _)
  · intro x
    have hannounced : announcements (h₁ ++ [⟨.getVm s₁.ctx.vmId, .error x⟩]) = [] :=
      (filterMap_snoc_none announcing rfl h₁).trans ha₁.announced
    exact Addressing.addressed
      ⟨ha₁.ips.trans (vmAddresses_snoc_none rfl).symm, hannounced, hquiet _⟩ (handingOver_nil _)

/-- With the transition to it the step of the routes begins, unless that transition fails. -/
theorem wp_enterBgp_addressing (progress : ℚ)
    (ha : Addressing kind ctx False [] (addressView s) h) :
    wp (transition .run .bgp progress)
      (fun _ s' h' => Addressing kind ctx True [] (addressView s') h')
      (fun _ s' h' => Addressed kind ctx s' h') s h := by
  have hnext (reply : Except PyException Unit) : Addressing kind ctx (reply.isOk = true) []
      (addressView s) (h ++ [⟨.transition .run .bgp progress, reply⟩]) := by
    refine ⟨ha.ips.trans (vmAddresses_snoc_none rfl).symm,
      (filterMap_snoc_none announcing rfl h).trans ha.announced, ?_⟩
    rw [has_snoc, ha.entered, false_or]
    exact and_iff_right rfl
  rw [transition, wp_bind, wp_modify, wp_perform]
  constructor
  · intro reply
    have hok := hnext (.ok reply)
    exact ⟨hok.ips, hok.announced, hok.entered.trans (by simp [Except.isOk, Except.toBool])⟩
  · intro x
    have herror := hnext (.error x)
    exact Addressing.addressed ⟨herror.ips, herror.announced, herror.entered.trans
      (by simp [Except.isOk, Except.toBool])⟩ (handingOver_nil _)

theorem wp_announce_addressing {done rest : List String} {pfx : String} {hop : Option String}
    (hpfx : prefixes s.ctx = done ++ pfx :: rest)
    (ha : Addressing kind ctx True done (addressView s) h) :
    wp (await (.announce ⟨pfx, hop⟩))
      (fun _ s' h' => s' = s ∧ Addressing kind ctx True (done ++ [pfx]) (addressView s) h')
      (fun _ s' h' => Addressed kind ctx s' h') s h := by
  have hnext (reply : Except PyException Unit) : Addressing kind ctx True (done ++ [pfx])
      (addressView s) (h ++ [⟨.announce ⟨pfx, hop⟩, reply⟩]) := by
    refine ⟨ha.ips.trans (vmAddresses_snoc_none rfl).symm, ?_,
      (has_bgpEntered_snoc (by simp [BgpEntered, Call.entersBgp])).trans ha.entered⟩
    rw [announcements, filterMap_snoc_some announcing rfl]
    exact congrArg (· ++ [pfx]) ha.announced
  have hips : addressView s ≠ [] := prefixes_ne_nil.1 (by simp [hpfx])
  rw [wp_perform]
  refine ⟨fun _ => ⟨rfl, hnext _⟩, fun _ => (hnext _).addressed ⟨⟨rest, ?_⟩, by simp [hips]⟩⟩
  rw [List.append_assoc, List.singleton_append, ← hpfx]
  rfl

theorem wp_handoff_addressing {hop : Option String} {client : Option (CNFControlStub .source)}
    (ha : Addressing kind ctx True [] (addressView s) h) :
    wp (BGPManager.handoff (prefixes s.ctx) hop client)
      (fun _ s' h' => Addressing kind ctx True (prefixes s'.ctx) (addressView s') h')
      (fun _ s' h' => Addressed kind ctx s' h') s h := by
  rw [BGPManager.handoff]
  apply wp_seq (wp_forM (fun done s' h' => s' = s ∧
    Addressing kind ctx True done (addressView s) h') _ ?_ ⟨rfl, ha⟩)
  · rintro _ _ h₁ ⟨rfl, ha₁⟩
    refine wp_weaken (wp_addressing ?_ ?_ (handingOver_all _) ha₁) fun _ s' h' hq => ?_
    · refine .bind (.forM fun pfx _ => .tryCatch (.bind ?_ fun _ => .pure _ _) fun _ => .pure _ _)
        fun _ => .forM fun _ _ => .perform rfl
      cases client with
      | none => exact .throw _ _
      | some _ => exact .perform rfl
    · exact .bind (.forM fun pfx => .tryCatch (.bind (keeps_withdrawIP client pfx)
        fun _ => .pure _ _) fun _ => .pure _ _) fun _ => .forM fun _ => .perform _ _
    · have hprefixes : prefixes s'.ctx = _ := congrArg (List.map (s!"{·}/32")) hq.1
      rw [hprefixes]
      exact hq.2
  · rintro done pfx rest _ h₁ hpfx ⟨rfl, ha₁⟩
    exact wp_announce_addressing hpfx ha₁

theorem wp_ending_addressing {α : Type} {p : Engine α}
    (hp : Calls (fun c => c.addresses = false) p) (hk : Keeps addressView p)
    (ha : Addressing kind ctx True (prefixes s.ctx) (addressView s) h) :
    wp p (fun _ s' h' => Addressed kind ctx s' h' ∧ announcements h' = prefixes s'.ctx)
      (fun _ s' h' => Addressed kind ctx s' h') s h := by
  refine wp_weaken (wp_addressing hp hk (handingOver_all _) ha) fun _ s' h' hq => ?_
  have hprefixes : prefixes s'.ctx = prefixes s.ctx := congrArg (List.map (s!"{·}/32")) hq.1
  refine ⟨hq.2.addressed ?_, hq.2.announced.trans hprefixes.symm⟩
  rw [hq.1]
  exact handingOver_all _

theorem addressing_start :
    Addressing kind ctx False [] (addressView (EngineState.init ctx)) [] :=
  ⟨rfl, rfl, by simp [not_has_nil]⟩

namespace ColdMigrationEngine

theorem wp_stepBgp_addressing (ha : Addressing kind ctx False [] (addressView s) h) :
    wp stepBgp (fun _ s' h' => Addressing kind ctx True (prefixes s'.ctx) (addressView s') h')
      (fun _ s' h' => Addressed kind ctx s' h') s h := by
  rw [stepBgp]
  apply wp_seq (wp_enterBgp_addressing _ ha)
  intro _ s₁ h₁ ha₁
  rw [wp_bind, wp_read, wp_ite]
  constructor
  · intro hips
    have hnil : prefixes s₁.ctx = [] := prefixes_of_no_ips hips
    rw [wp_pure, hnil]
    exact ha₁
  · intro _
    apply wp_seq (wp_handoff_addressing ha₁)
    intro _ s₂ h₂ ha₂
    exact ha₂

theorem wp_body_addressing (cfg : Settings) (ctx : MigrationContext) :
    wp (body cfg)
      (fun b s h => Addressed .cold ctx s h ∧ (b = true → announcements h = prefixes s.ctx))
      (fun _ s h => Addressed .cold ctx s h) (EngineState.init ctx) [] := by
  have hb := blind_addressView
  unfold body steps
  apply wp_seq (wp_preflight_addressing .cold addressing_start)
  intro _ s₁ h₁ ha₁
  rw [wp_bind, wp_read, wp_ite]
  refine ⟨fun _ => ⟨ha₁.addressed (handingOver_nil _), nofun⟩, fun _ => ?_⟩
  apply wp_seq (wp_addressing (isStep_stepDisk.unaddressed (by decide) (by decide))
    (keeps_stepDisk hb) (handingOver_nil _) ha₁)
  rintro _ s₂ h₂ ⟨-, ha₂⟩
  apply wp_seq (wp_addressing (isStep_stepCutover.unaddressed (by decide) (by decide))
    (keeps_stepCutover hb.record) (handingOver_nil _) ha₂)
  rintro _ s₃ h₃ ⟨-, ha₃⟩
  apply wp_seq (wp_stepBgp_addressing ha₃)
  intro _ s₄ h₄ ha₄
  refine wp_weaken (wp_ending_addressing ?_ ?_ ha₄) fun _ _ _ hq => ⟨hq.1, fun _ => hq.2⟩
  · exact .bind ((isStep_cleanup 95).unaddressed (by decide) (by decide)) fun _ =>
      .bind (unaddressed_transition (by decide) _) fun _ => .pure _ _
  · exact keeps_ending hb.record _

end ColdMigrationEngine

namespace LiveMigrationEngine

theorem wp_stepBgp_addressing (ha : Addressing kind ctx False [] (addressView s) h) :
    wp stepBgp (fun _ s' h' => Addressing kind ctx True (prefixes s'.ctx) (addressView s') h')
      (fun _ s' h' => Addressed kind ctx s' h') s h := by
  rw [stepBgp]
  apply wp_seq (wp_enterBgp_addressing _ ha)
  intro _ s₁ h₁ ha₁
  rw [wp_bind, wp_read, wp_ite]
  constructor
  · intro hips
    have hnil : prefixes s₁.ctx = [] := prefixes_of_no_ips hips
    rw [wp_pure, hnil]
    exact ha₁
  · intro _
    exact wp_handoff_addressing ha₁

theorem wp_body_addressing (cfg : Settings) (ctx : MigrationContext) :
    wp (body cfg)
      (fun b s h => Addressed .live ctx s h ∧ (b = true → announcements h = prefixes s.ctx))
      (fun _ s h => Addressed .live ctx s h) (EngineState.init ctx) [] := by
  have hb := blind_addressView
  unfold body steps
  apply wp_seq (wp_preflight_addressing .live addressing_start)
  intro _ s₁ h₁ ha₁
  rw [wp_bind, wp_read, wp_ite]
  refine ⟨fun _ => ⟨ha₁.addressed (handingOver_nil _), nofun⟩, fun _ => ?_⟩
  apply wp_seq (wp_addressing (isStep_stepDiskSync.unaddressed (by decide) (by decide))
    (keeps_stepDiskSync hb.record) (handingOver_nil _) ha₁)
  rintro _ s₂ h₂ ⟨-, ha₂⟩
  apply wp_seq (wp_addressing (isStep_stepMemory.unaddressed (by decide) (by decide))
    (keeps_stepMemory hb) (handingOver_nil _) ha₂)
  rintro _ s₃ h₃ ⟨-, ha₃⟩
  apply wp_seq (wp_addressing (isStep_stepCutover.unaddressed (by decide) (by decide))
    (keeps_stepCutover hb) (handingOver_nil _) ha₃)
  rintro _ s₄ h₄ ⟨-, ha₄⟩
  apply wp_seq (wp_stepBgp_addressing ha₄)
  intro _ s₅ h₅ ha₅
  refine wp_weaken (wp_ending_addressing ?_ ?_ ha₅) fun _ _ _ hq => ⟨hq.1, fun _ => hq.2⟩
  · exact .bind ((isStep_cleanup 96).unaddressed (by decide) (by decide)) fun _ =>
      .bind (unaddressed_transition (by decide) _) fun _ => .pure _ _
  · exact keeps_ending hb.record _

end LiveMigrationEngine

theorem wp_body_addressing (kind : MigrationType) (cfg : Settings) (ctx : MigrationContext) :
    wp (kind.body cfg)
      (fun b s h => Addressed kind ctx s h ∧ (b = true → announcements h = prefixes s.ctx))
      (fun _ s h => Addressed kind ctx s h) (EngineState.init ctx) [] := by
  cases kind with
  | cold => exact ColdMigrationEngine.wp_body_addressing cfg ctx
  | live => exact LiveMigrationEngine.wp_body_addressing cfg ctx

/-! ### Runs -/

/-- What the handlers of a failure keep: they do not touch the plan of the run. -/
structure PlanAddressed (kind : MigrationType) (ctx : MigrationContext) (p : Plan) (h : Trace) :
    Prop where
  prefixes_eq : p.prefixes = (vmAddresses kind ctx h).map (s!"{·}/32")
  announced : announcements h <+: p.prefixes
  reached : announcements h ≠ [] ↔ Has BgpEntered h ∧ p.prefixes ≠ []

theorem Addressed.plan (ha : Addressed kind ctx s h) : PlanAddressed kind ctx s.ctx.plan h where
  prefixes_eq := congrArg (List.map (s!"{·}/32")) ha.ips
  announced := ha.announced
  reached := by
    rw [ha.reached, ← prefixes_ne_nil]
    rfl

theorem PlanAddressed.other {p : Plan} (hp : PlanAddressed kind ctx p h)
    (he : e.call.addresses = false) : PlanAddressed kind ctx p (h ++ [e]) := by
  have hannounced : announcements (h ++ [e]) = announcements h :=
    filterMap_snoc_none announcing (announcing_eq_none he) h
  constructor
  · rw [vmAddresses_snoc_none (told_eq_none he)]
    exact hp.prefixes_eq
  · rw [hannounced]
    exact hp.announced
  · rw [hannounced, has_bgpEntered_snoc (not_bgpEntered he)]
    exact hp.reached

theorem addressed_migrate (kind : MigrationType) (cfg : Settings) (ctx : MigrationContext)
    (O : World) :
    Addressed kind ctx (kind.migrate cfg ctx O).state (kind.migrate cfg ctx O).trace := by
  have hplan : PlanAddressed kind ctx (kind.migrate cfg ctx O).state.ctx.plan
      (kind.migrate cfg ctx O).trace := by
    refine migrate_of_body kind (PlanAddressed kind ctx) ?_ ?_ O
    · apply wp_mono (wp_body_addressing kind cfg ctx)
      · exact fun _ s h hq => hq.1.plan
      · exact fun _ s h hq => hq.plan
    · intro p h e he hp
      have hother : e.call.addresses = false := by
        generalize e.call = c at he
        cases c <;> first | rfl | cases he
      exact hp.other hother
  refine ⟨hostPrefix_injective.list_map hplan.prefixes_eq, hplan.announced, ?_⟩
  rw [hplan.reached, ← prefixes_ne_nil]
  rfl

theorem isSome_handedOver (ctx : MigrationContext) (h : Trace) :
    (handedOver ctx h).isSome = true ↔ Has BgpEntered h ∧ ctx.vmIps ≠ [] := by
  unfold handedOver
  split_ifs with hreached
  · simp [hreached]
  · simp [hreached]

theorem forall_handedOver_iff (ctx : MigrationContext) (h : Trace) :
    (∀ given ∈ handedOver ctx h, List.Forall₂ IsHostRoute ctx.vmIps given) ↔
      (Has BgpEntered h → ∀ ip ∈ ctx.vmIps, IsV4 ip) := by
  unfold handedOver
  split_ifs with hreached
  · have hgiven : (∀ given ∈ some (prefixes ctx), List.Forall₂ IsHostRoute ctx.vmIps given) ↔
        List.Forall₂ IsHostRoute ctx.vmIps (prefixes ctx) := by simp
    rw [hgiven, prefixes, isHostRoutes_iff]
    exact ⟨fun hips _ => hips, fun hips => hips hreached.1⟩
  · refine iff_of_true (fun _ hgiven => absurd hgiven (Option.not_mem_none _)) ?_
    intro hentered ip hip
    exact absurd ⟨hentered, List.ne_nil_of_mem hip⟩ hreached

/-- What a run announces comes of the list that it hands over, which denotes the addresses one by
one just if they are all of the one family. -/
theorem host_routes_iff (kind : MigrationType) (cfg : Settings) (ctx : MigrationContext)
    (O : World) :
    let run := kind.migrate cfg ctx O
    (((handedOver run.state.ctx run.trace).isSome = true ↔ announcements run.trace ≠ []) ∧
      announcements run.trace <+: prefixes run.state.ctx ∧
      (run.result = .ok true → announcements run.trace = prefixes run.state.ctx)) ∧
    ((∀ given ∈ handedOver run.state.ctx run.trace,
        List.Forall₂ IsHostRoute run.state.ctx.vmIps given) ↔
      (Has BgpEntered run.trace → ∀ ip ∈ vmAddresses kind ctx run.trace, IsV4 ip)) := by
  intro run
  have haddressed := addressed_migrate kind cfg ctx O
  refine ⟨⟨?_, haddressed.announced, fun hres => ?_⟩, ?_⟩
  · rw [isSome_handedOver, haddressed.reached]
  · exact (wp_of_true kind (wp_body_addressing kind cfg ctx) hres).2 rfl
  · rw [← haddressed.ips]
    exact forall_handedOver_iff _ _

def dualStack : VMDetails := { twoVolumes with ips := ["10.0.0.5", "2001:db8::a00:5"] }

/-- The second prefix is as short as those of whole networks. -/
theorem not_host_routes :
    let run := MigrationType.cold.migrate settings (connected .cold) (cooperative dualStack)
    run.result = .ok true ∧ ∃ given ∈ handedOver run.state.ctx run.trace,
      ¬ List.Forall₂ IsHostRoute run.state.ctx.vmIps given := by
  intro run
  have hips : run.state.ctx.vmIps = ["10.0.0.5", "2001:db8::a00:5"] := by decide +kernel
  have hentered : Has BgpEntered run.trace := by decide +kernel
  refine ⟨by decide +kernel, prefixes run.state.ctx, ?_, fun hall => ?_⟩
  · exact if_pos ⟨hentered, by simp [hips]⟩
  · have hv4 := (isHostRoutes_iff _).1 hall
    rw [hips] at hv4
    obtain ⟨bits, hbits⟩ := hv4 "2001:db8::a00:5" (by simp)
    have hread : IpAddress.read "2001:db8::a00:5".toList =
        some (.v6 0x20010db800000000000000000a000005) := by decide +kernel
    rw [hread] at hbits
    cases hbits

end NovaFederation
