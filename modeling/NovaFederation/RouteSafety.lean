import NovaFederation.Handoff

/-!
# The routes that a run leaves behind

After a successful run the destination announces every prefix, with the next hop of the engine;
whether the source still does depends on answers that the handoff does not look at. A failed run
never gives a prefix back to the source, and what an interrupted handoff has announced stays.
-/

namespace NovaFederation
open History Coroutine
variable {kind : MigrationType} {cfg : Settings} {ctx : MigrationContext} {O : World}
  {eff : Effects} {pfx : String} {hop : Option String} {prefixes : List String} {h : Trace}
  {e : CallEvent}

/-! ### After success -/

/-- The destination alone announces the prefixes, with the requested next hop. -/
def HandedTo (eff : Effects) (requested : Option String) (run : Run) : Prop :=
  ∀ pfx ∈ routePrefixes run.state,
    routes eff run.trace .dest pfx = some requested ∧ routes eff run.trace .source pfx = none

theorem HandedOver.dest {client : Bool} (hh : HandedOver prefixes hop client h)
    (hp : pfx ∈ prefixes) : routes eff h .dest pfx = some hop := by
  obtain ⟨e, he, ha⟩ := hh.announced pfx hp
  exact (dest_route hh.calls).1 ⟨e, he, ha.took⟩

theorem HandedOver.source {client : Bool} (hh : HandedOver prefixes hop client h) :
    routes eff h .source pfx = none ↔ Has (SourceWithdrew eff pfx) h := by
  apply source_silent_iff
  intro e he hc
  have hcall := hh.calls e he
  rw [hc] at hcall
  exact hcall

theorem nextHop_eq_iff (kind : MigrationType) (ctx : MigrationContext) :
    kind.nextHop ctx = ctx.options.get "dest_next_hop" "" ↔
      (kind = .cold → ctx.options.get "dest_next_hop" "" = some "") := by
  cases kind with
  | cold => simp [MigrationType.nextHop, eq_comm]
  | live => simp [MigrationType.nextHop]

theorem handed_to_iff (kind : MigrationType) (cfg : Settings) (ctx : MigrationContext) (O : World)
    (eff : Effects) (hres : (kind.migrate cfg ctx O).result = .ok true) :
    HandedTo eff (ctx.options.get "dest_next_hop" "") (kind.migrate cfg ctx O) ↔
      ∀ pfx ∈ routePrefixes (kind.migrate cfg ctx O).state,
        (kind = .cold → ctx.options.get "dest_next_hop" "" = some "") ∧
          Has (SourceWithdrew eff pfx) (kind.migrate cfg ctx O).trace := by
  have hh := wp_of_true kind (wp_body_routes kind cfg ctx) hres rfl
  refine forall₂_congr fun pfx hp => ?_
  rw [hh.dest hp, hh.source, Option.some_inj, nextHop_eq_iff]

def requesting (kind : MigrationType) (hop : String) : MigrationContext :=
  { connected kind with options := ("dest_next_hop", some hop) :: (connected kind).options }

theorem handed_to_in_live_run :
    HandedTo .atomic (some "192.0.2.1") (MigrationType.live.migrate settings
      (requesting .live "192.0.2.1") (cooperative twoVolumes)) :=
  (handed_to_iff .live settings (requesting .live "192.0.2.1") (cooperative twoVolumes) .atomic
    (by decide +kernel)).2 (by decide +kernel)

/-- A queued cold migration, in a world in which nothing goes wrong. -/
theorem not_handed_to :
    (MigrationType.cold.migrate settings (executeMigration "m" "vm" "cluster-a" "cluster-b"
        [("dest_next_hop", some "192.0.2.1")] false) (cooperative twoVolumes)).result = .ok true ∧
      ¬ HandedTo .atomic (some "192.0.2.1") (MigrationType.cold.migrate settings
        (executeMigration "m" "vm" "cluster-a" "cluster-b"
          [("dest_next_hop", some "192.0.2.1")] false) (cooperative twoVolumes)) := by
  refine ⟨by decide +kernel, fun hh => ?_⟩
  have hroutes := hh "10.0.0.5/32" (by decide +kernel)
  revert hroutes
  decide +kernel

/-! ### After a failure -/

/-- The source alone announces the prefixes. -/
def Restored (eff : Effects) (run : Run) : Prop :=
  ∀ pfx ∈ routePrefixes run.state,
    routes eff run.trace .source pfx ≠ none ∧ routes eff run.trace .dest pfx = none

/-- The source has confirmed every withdrawal, which it is asked for after every announcement. -/
def HandoffConfirmed (run : Run) : Prop :=
  ∀ pfx ∈ routePrefixes run.state, Has (SourceWithdrew .atomic pfx) run.trace

instance (run : Run) : Decidable (HandoffConfirmed run) :=
  inferInstanceAs
    (Decidable (∀ pfx ∈ routePrefixes run.state, Has (SourceWithdrew .atomic pfx) run.trace))

/-- The handler of a cold run asks the agent of the destination, and a live run has none. -/
theorem RolledBack.not_announced_on_source {error : String} {s₀ s : EngineState} {h₀ : Trace}
    (hb : RolledBack kind cfg error s₀ h₀ s h) :
    ∀ e ∈ h, e.call ≠ .announceIP .source pfx := by
  obtain ⟨t, rfl, ht, -⟩ := hb.tail
  intro e he hc
  rcases List.mem_append.1 he with he | he
  · have hf := hb.stopped.forward e he
    rw [hc] at hf
    cases hf
  · rcases List.mem_cons.1 he with rfl | he
    · cases hc
    · obtain ⟨rb, -, hi⟩ := ht e he
      rw [hc] at hi
      obtain ⟨-, _, -, hq⟩ | ⟨_, -, _, -, hq | hq⟩ | ⟨_, _, -, hq⟩ := hi.call_cases
      · cases hq
      · cases hq
      · cases hq
      · cases hq

theorem SourceWithdrew.of_atomic (hw : SourceWithdrew .atomic pfx e) : SourceWithdrew eff pfx e :=
  ⟨hw.1, eff.of_acknowledged e hw.2⟩

theorem restored_iff (kind : MigrationType) (cfg : Settings) (ctx : MigrationContext) (O : World)
    (eff : Effects) (hres : (kind.migrate cfg ctx O).result = .ok false)
    (hc : HandoffConfirmed (kind.migrate cfg ctx O)) :
    Restored eff (kind.migrate cfg ctx O) ↔ (kind.migrate cfg ctx O).state.ctx.vmIps = [] := by
  obtain ⟨e, s₀, h₀, -, hrb⟩ := rolledBack_of_false hres
  generalize kind.migrate cfg ctx O = run at hc hrb
  constructor
  · intro hr
    by_contra hips
    obtain ⟨ip, hip⟩ := List.exists_mem_of_ne_nil _ hips
    have hp : s!"{ip}/32" ∈ routePrefixes run.state := List.mem_map_of_mem hip
    obtain ⟨a, ha, hw⟩ := hc _ hp
    apply (hr _ hp).1
    exact (source_silent_iff hrb.not_announced_on_source).2 ⟨a, ha, hw.of_atomic⟩
  · intro hips pfx hp
    rw [routePrefixes, MigrationEngine.prefixes, hips] at hp
    cases hp

/-- Every call of the handoff succeeds; then the record of the cleanup step cannot be written. -/
def cleanupUnwritten : World
  | h, .transition task state progress =>
    if state = .cleanup then .error ⟨.other, "connection reset"⟩
    else cooperative twoVolumes h (.transition task state progress)
  | h, c => cooperative twoVolumes h c

theorem restored_after_cleanup_unwritten :
    Restored .atomic
        (MigrationType.live.migrate settings (connected .live) cleanupUnwritten) ↔
      (MigrationType.live.migrate settings (connected .live) cleanupUnwritten).state.ctx.vmIps =
        [] :=
  restored_iff .live settings (connected .live) cleanupUnwritten .atomic (by decide +kernel)
    (by decide +kernel)

theorem not_restored :
    HandoffConfirmed (MigrationType.cold.migrate settings (connected .cold) cleanupUnwritten) ∧
      (MigrationType.cold.migrate settings (connected .cold) cleanupUnwritten).result =
        .ok false ∧
      ¬ Restored .atomic
        (MigrationType.cold.migrate settings (connected .cold) cleanupUnwritten) := by
  refine ⟨by decide +kernel, by decide +kernel, fun hr => ?_⟩
  have hroutes := (hr "10.0.0.5/32" (by decide +kernel)).1
  revert hroutes
  decide +kernel

/-! ### After an interrupted handoff -/

def NothingAnnounced (eff : Effects) (run : Run) : Prop :=
  ∀ e ∈ run.trace, ∀ route, e.call = .announce route → eff.took e = false

theorem unrouted_of_issues {rbs : List Rollback} {p : Plan} {c : Call}
    (hrbs : rbs.filterMap Rollback.routed = []) (hc : ∃ rb ∈ rbs, rb.issues cfg p c) :
    c.isRoute = false := by
  obtain ⟨rb, hrb, hi⟩ := hc
  obtain ⟨-, _, -, rfl⟩ | ⟨prefixes, rfl, -⟩ | ⟨_, _, -, rfl⟩ := hi.call_cases
  · rfl
  · have hnone := List.filterMap_eq_nil_iff.1 hrbs _ hrb
    cases hnone
  · rfl

theorem Interrupted.append {t : Trace} (hi : Interrupted prefixes hop h)
    (ht : ∀ e ∈ t, e.call.isRoute = false) : Interrupted prefixes hop (h ++ t) := by
  induction t using List.reverseRecOn with
  | nil => simpa using hi
  | append_singleton t e ih =>
    have ih := ih fun a ha => ht a (List.mem_append_left _ ha)
    have he := ht e (by simp)
    rw [← List.append_assoc]
    refine ⟨respects_snoc.2 ⟨ih.law, routeLaw_of_unrouted he⟩,
      forall_snoc ih.calls (handoffCall_of_unrouted he), ih.failed.append _, ?_⟩
    intro pfx
    rw [has_snoc]
    rintro (hw | hw)
    · exact ih.unasked pfx hw
    · rw [WithdrawAsked] at hw
      rw [hw] at he
      cases he

theorem interrupted_of_announceFailed (hres : (kind.migrate cfg ctx O).result = .ok false)
    (hf : Has AnnounceFailed (kind.migrate cfg ctx O).trace) :
    Interrupted (routePrefixes (kind.migrate cfg ctx O).state) (kind.nextHop ctx)
      (kind.migrate cfg ctx O).trace := by
  obtain ⟨e, s₀, h₀, hb, hrb⟩ := rolledBack_of_false hres
  have hcut := (wp_exec O (wp_body_routes kind cfg ctx)).2 e s₀ h₀ hb
  generalize kind.migrate cfg ctx O = run at hf hrb ⊢
  obtain ⟨a, ha, route, x, rfl⟩ := hf
  obtain ⟨hi, hrbs⟩ := hcut ⟨_, hrb.forward_mem ha rfl, route, x, rfl⟩
  have hplan := congrArg Plan.prefixes hrb.stopped.plan
  obtain ⟨t, htrace, ht, -⟩ := hrb.tail
  have hp : routePrefixes s₀ = routePrefixes run.state := hplan
  rw [htrace, ← hp]
  apply hi.append
  intro b hb
  rcases List.mem_cons.1 hb with rfl | hb
  · rfl
  · rw [← hrb.rollbacks] at hrbs
    exact unrouted_of_issues hrbs (ht b hb)

theorem stray_routes_iff (kind : MigrationType) (cfg : Settings) (ctx : MigrationContext)
    (O : World) (eff : Effects) (hres : (kind.migrate cfg ctx O).result = .ok false)
    (hf : Has AnnounceFailed (kind.migrate cfg ctx O).trace) :
    Restored eff (kind.migrate cfg ctx O) ↔ NothingAnnounced eff (kind.migrate cfg ctx O) := by
  have hi := interrupted_of_announceFailed hres hf
  generalize kind.migrate cfg ctx O = run at hi ⊢
  constructor
  · intro hr e he route hc
    have hcall := hi.calls e he
    rw [hc] at hcall
    by_contra ht
    have ha : Has (DestAnnounced eff route.pfx) run.trace :=
      ⟨e, he, route.nextHop, hc, by simpa using ht⟩
    have hdest := (hr _ hcall.1).2
    rw [(dest_route hi.calls).1 ha] at hdest
    cases hdest
  · intro hno pfx _
    constructor
    · intro hs
      obtain ⟨a, ha, hw, -⟩ := withdrew_of_source_silent hs
      exact hi.unasked pfx ⟨a, ha, hw⟩
    · apply (dest_route hi.calls).2
      rintro ⟨a, ha, nextHop, hc, ht⟩
      rw [hno a ha _ hc] at ht
      cases ht

def twoAddresses : VMDetails := { twoVolumes with ips := ["10.0.0.5", "10.0.0.6"] }

def secondAnnouncementRaises : World
  | h, .announce route =>
    if route.pfx = "10.0.0.6/32" then .error ⟨.bgpError, "vtysh failed"⟩
    else cooperative twoAddresses h (.announce route)
  | h, c => cooperative twoAddresses h c

theorem stray_routes_after_second_announcement :
    Restored .atomic
        (MigrationType.live.migrate settings (connected .live) secondAnnouncementRaises) ↔
      NothingAnnounced .atomic
        (MigrationType.live.migrate settings (connected .live) secondAnnouncementRaises) :=
  stray_routes_iff .live settings (connected .live) secondAnnouncementRaises .atomic
    (by decide +kernel) (by decide +kernel)

theorem stray_route_left :
    Has AnnounceFailed
        (MigrationType.cold.migrate settings (connected .cold) secondAnnouncementRaises).trace ∧
      (MigrationType.cold.migrate settings (connected .cold) secondAnnouncementRaises).result =
        .ok false ∧
      ¬ Restored .atomic
        (MigrationType.cold.migrate settings (connected .cold) secondAnnouncementRaises) := by
  refine ⟨by decide +kernel, by decide +kernel, fun hr => ?_⟩
  have hroutes := (hr "10.0.0.5/32" (by decide +kernel)).2
  revert hroutes
  decide +kernel

end NovaFederation
