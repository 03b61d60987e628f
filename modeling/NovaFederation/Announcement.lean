import NovaFederation.FRRClient
import NovaFederation.Handoff

/-!
# Announcing as a whole

An announcement has two effects, and a caller sees one reply. An exit code of `ip` that nobody
reads loses the second effect behind a normal return; an exception after the first one leaves it
behind. Otherwise both take place, or neither.
-/

namespace NovaFederation
open Coroutine History FRRClient
variable {cfg : BGPConfig} {route : BGPRoute} {O : FrrWorld} {eff : CommandEffects} {r : Router}

def Router.Carries (r : Router) (route : BGPRoute) : Prop :=
  ∃ via, route.nextHop = some via ∧ r.routes route.pfx = some via

/-- A call returns with both installed, or raises and leaves neither behind. -/
structure AllOrNothing (route : BGPRoute) (before : Router) (result : Except PyException Unit)
    (after : Router) : Prop where
  returned : result = .ok () → after.networks route.pfx = true ∧ after.Carries route
  raised : ∀ e, result = .error e →
    (after.networks route.pfx = true → before.networks route.pfx = true) ∧
      (after.Carries route → before.Carries route)

def configured (O : FrrWorld) (cfg : BGPConfig) (pfx : String) : FrrEvent :=
  ⟨_, O [] (.vtysh (inAddressFamily cfg (networkStatement pfx)))⟩

def injected (O : FrrWorld) (cfg : BGPConfig) (pfx via : String) : FrrEvent :=
  ⟨_, O [configured O cfg pfx] (.ip ["route", "replace", pfx, "via", via])⟩

/-- The exit code of `ip` is zero, or the route was there; when running `ip` raises, everything was
there that is now. -/
def RouteSettled (eff : CommandEffects) (r : Router) (O : FrrWorld) (cfg : BGPConfig)
    (pfx via : String) : Prop :=
  match (injected O cfg pfx via).reply with
  | .ok p => p.returncode = 0 ∨ r.routes pfx = some via
  | .error _ => r.networks pfx = true ∧
      (eff.took (injected O cfg pfx via) = true → r.routes pfx = some via)

def Settled (eff : CommandEffects) (r : Router) (O : FrrWorld) (cfg : BGPConfig)
    (route : BGPRoute) : Prop :=
  match (configured O cfg route.pfx).reply, route.nextHop with
  | .error _, _ => eff.took (configured O cfg route.pfx) = true → r.networks route.pfx = true
  | .ok p, none => p.returncode = 0 → r.networks route.pfx = true
  | .ok p, some via => p.returncode = 0 → RouteSettled eff r O cfg route.pfx via

/-! ### The ways an announcement goes -/

theorem configured_eq {reply : Except PyException CompletedProcess}
    (hv : (configured O cfg route.pfx).reply = reply) :
    O [] (.vtysh (inAddressFamily cfg (networkStatement route.pfx))) = reply ∧
      [] ++ [(⟨.vtysh (inAddressFamily cfg (networkStatement route.pfx)), reply⟩ : FrrEvent)] =
        [configured O cfg route.pfx] := by
  subst hv
  exact ⟨rfl, rfl⟩

theorem run_announce_of_error {e : PyException}
    (hv : (configured O cfg route.pfx).reply = .error e) :
    run O (announce cfg route) () = (.error e, (), [configured O cfg route.pfx]) := by
  obtain ⟨hreply, hevent⟩ := configured_eq hv
  unfold run announce
  rw [exec_bind, exec_vtysh_of_error hreply, hevent]

theorem run_announce_of_failed {p : CompletedProcess}
    (hv : (configured O cfg route.pfx).reply = .ok p) (hp : p.returncode ≠ 0) :
    run O (announce cfg route) () =
      (.error ⟨.bgpError, s!"vtysh failed: {PyString.trim p.stderr}"⟩, (),
        [configured O cfg route.pfx]) := by
  obtain ⟨hreply, hevent⟩ := configured_eq hv
  unfold run announce
  rw [exec_bind, exec_vtysh_of_failed hreply hp, hevent]

theorem run_announce_of_none {p : CompletedProcess}
    (hv : (configured O cfg route.pfx).reply = .ok p) (hp : p.returncode = 0)
    (hvia : route.nextHop = none) :
    run O (announce cfg route) () = (.error noneArgument, (), [configured O cfg route.pfx]) := by
  obtain ⟨hreply, hevent⟩ := configured_eq hv
  unfold run announce
  rw [exec_bind, exec_vtysh_of_zero hreply hp, hevent, hvia]
  rfl

theorem run_announce_of_some {p : CompletedProcess} {via : String}
    (hv : (configured O cfg route.pfx).reply = .ok p) (hp : p.returncode = 0)
    (hvia : route.nextHop = some via) :
    run O (announce cfg route) () =
      ((injected O cfg route.pfx via).reply.map fun _ => (), (),
        [configured O cfg route.pfx, injected O cfg route.pfx via]) := by
  obtain ⟨hreply, hevent⟩ := configured_eq hv
  unfold run announce
  rw [exec_bind, exec_vtysh_of_zero hreply hp, hevent, hvia]
  unfold addKernelRoute
  cases hk : (injected O cfg route.pfx via).reply with
  | error e =>
    have hreply : O [configured O cfg route.pfx]
        (.ip ["route", "replace", route.pfx, "via", via]) = .error e := hk
    dsimp only
    rw [exec_bind, exec_perform_of_error hreply, injected, hreply]
    rfl
  | ok q =>
    have hreply : O [configured O cfg route.pfx]
        (.ip ["route", "replace", route.pfx, "via", via]) = .ok q := hk
    dsimp only
    rw [exec_bind, exec_perform_of_ok hreply, injected, hreply]
    rfl

/-! ### All or nothing -/

theorem took_of_reply (eff : CommandEffects) {e : FrrEvent} {p : CompletedProcess}
    (h : e.reply = .ok p) : eff.took e = decide (p.returncode = 0) := by
  obtain ⟨c, reply⟩ := e
  obtain rfl : reply = .ok p := h
  exact eff.of_exit c p

theorem apply_of_took {e : FrrEvent} (h : eff.took e = true) : eff.apply r e = r.act e.call :=
  if_pos h

theorem apply_of_not_took {e : FrrEvent} (h : ¬ eff.took e = true) : eff.apply r e = r :=
  if_neg h

theorem allOrNothing_of_configured {e : PyException} :
    AllOrNothing route r (.error e) (eff.router r [configured O cfg route.pfx]) ↔
      (eff.took (configured O cfg route.pfx) = true → r.networks route.pfx = true) := by
  have hrouter : eff.router r [configured O cfg route.pfx] =
      eff.apply r (configured O cfg route.pfx) := rfl
  rw [hrouter]
  by_cases htook : eff.took (configured O cfg route.pfx) = true
  · rw [apply_of_took htook, configured, Router.act_network]
    constructor
    · intro h _
      exact (h.raised e rfl).1 (if_pos rfl)
    · intro h
      refine ⟨nofun, fun _ _ => ⟨fun _ => h htook, id⟩⟩
  · rw [apply_of_not_took htook]
    exact iff_of_true ⟨nofun, fun _ _ => ⟨id, id⟩⟩ fun h => absurd h htook

theorem carries_iff {via : String} (hvia : route.nextHop = some via) :
    r.Carries route ↔ r.routes route.pfx = some via := by
  constructor
  · rintro ⟨via', hvia', hroute⟩
    rw [hroute, ← hvia', hvia]
  · exact fun hroute => ⟨via, hvia, hroute⟩

theorem allOrNothing_of_injected {via : String} (hvia : route.nextHop = some via)
    (hv : eff.took (configured O cfg route.pfx) = true) :
    AllOrNothing route r ((injected O cfg route.pfx via).reply.map fun _ => ())
        (eff.router r [configured O cfg route.pfx, injected O cfg route.pfx via]) ↔
      RouteSettled eff r O cfg route.pfx via := by
  have hrouter : eff.router r [configured O cfg route.pfx, injected O cfg route.pfx via] =
      eff.apply (eff.apply r (configured O cfg route.pfx)) (injected O cfg route.pfx via) := rfl
  obtain ⟨r', hr', hnetwork, hroutes⟩ : ∃ r', eff.apply r (configured O cfg route.pfx) = r' ∧
      r'.networks route.pfx = true ∧ r'.routes = r.routes := by
    refine ⟨_, apply_of_took hv, ?_⟩
    rw [configured, Router.act_network]
    exact ⟨if_pos rfl, rfl⟩
  have hact : (r'.act (injected O cfg route.pfx via).call).Carries route ∧
      (r'.act (injected O cfg route.pfx via).call).networks = r'.networks :=
    ⟨⟨via, hvia, if_pos rfl⟩, rfl⟩
  have hbefore : r'.Carries route ↔ r.routes route.pfx = some via := by
    rw [carries_iff hvia, hroutes]
  rw [hrouter, hr']
  unfold RouteSettled
  cases hk : (injected O cfg route.pfx via).reply with
  | ok q =>
    have htook := took_of_reply eff hk
    by_cases hq : q.returncode = 0
    · rw [apply_of_took (by rw [htook, decide_eq_true hq])]
      refine iff_of_true ⟨fun _ => ⟨?_, hact.1⟩, nofun⟩ (.inl hq)
      rw [hact.2, hnetwork]
    · rw [apply_of_not_took (by simp [htook, hq])]
      constructor
      · exact fun h => .inr (hbefore.1 (h.returned rfl).2)
      · rintro (hzero | hroute)
        · exact absurd hzero hq
        · exact ⟨fun _ => ⟨hnetwork, hbefore.2 hroute⟩, nofun⟩
  | error e =>
    by_cases htook : eff.took (injected O cfg route.pfx via) = true
    · rw [apply_of_took htook]
      constructor
      · intro h
        obtain ⟨hleft, hcarries⟩ := h.raised e rfl
        exact ⟨hleft (by rw [hact.2, hnetwork]), fun _ => (carries_iff hvia).1 (hcarries hact.1)⟩
      · rintro ⟨hwas, hroute⟩
        exact ⟨nofun, fun _ _ => ⟨fun _ => hwas, fun _ => (carries_iff hvia).2 (hroute htook)⟩⟩
    · rw [apply_of_not_took htook]
      constructor
      · exact fun h => ⟨(h.raised e rfl).1 hnetwork, fun ht => absurd ht htook⟩
      · rintro ⟨hwas, -⟩
        refine ⟨nofun, fun _ _ => ⟨fun _ => hwas, fun hc => ?_⟩⟩
        exact (carries_iff hvia).2 (hbefore.1 hc)

theorem announce_iff (cfg : BGPConfig) (route : BGPRoute) (O : FrrWorld) (eff : CommandEffects)
    (r : Router) :
    AllOrNothing route r (run O (announce cfg route) ()).1
        (eff.router r (run O (announce cfg route) ()).2.2) ↔ Settled eff r O cfg route := by
  unfold Settled
  cases hv : (configured O cfg route.pfx).reply with
  | error e =>
    rw [run_announce_of_error hv]
    exact allOrNothing_of_configured
  | ok p =>
    have htook := took_of_reply eff hv
    by_cases hp : p.returncode = 0
    · rw [decide_eq_true hp] at htook
      cases hvia : route.nextHop with
      | none =>
        rw [run_announce_of_none hv hp hvia]
        refine allOrNothing_of_configured.trans ?_
        simp only [htook, hp, forall_const]
      | some via =>
        rw [run_announce_of_some hv hp hvia]
        refine (allOrNothing_of_injected hvia htook).trans ?_
        simp only [hp, forall_const]
    · rw [run_announce_of_failed hv hp]
      refine allOrNothing_of_configured.trans ?_
      rw [htook, decide_eq_false hp]
      cases route.nextHop with
      | none => simp [hp]
      | some via => simp [hp]

def refusing : FrrWorld
  | _, .vtysh _ => .ok ⟨0, ""⟩
  | _, .ip _ => .ok ⟨1, "Error: inet address is expected rather than \"\"."⟩

def bare : Router := ⟨fun _ => false, fun _ => none⟩

/-- The next hop of the cold engine. -/
theorem announced_without_route :
    ¬ AllOrNothing ⟨"10.0.0.5/32", some ""⟩ bare
      (run refusing (announce ⟨65001⟩ ⟨"10.0.0.5/32", some ""⟩) ()).1
      (CommandEffects.unstarted.router bare
        (run refusing (announce ⟨65001⟩ ⟨"10.0.0.5/32", some ""⟩) ()).2.2) := by
  intro h
  obtain ⟨-, via, -, hroute⟩ := h.returned rfl
  exact absurd hroute nofun

/-! ### The engines over the client -/

/-- `frr h` answers the client call that is made after `h`. -/
def onRouter (cfg : BGPConfig) (frr : Trace → FrrWorld) (O : World) : World
  | h, .announce route => (run (frr h) (announce cfg route) ()).1
  | h, .withdraw pfx => (run (frr h) (withdraw cfg pfx) ()).1
  | h, c => O h c

def commandTrace (cfg : BGPConfig) (W : FrrWorld) : Call → FrrTrace
  | .announce route => (run W (announce cfg route) ()).2.2
  | .withdraw pfx => (run W (withdraw cfg pfx) ()).2.2
  | _ => []

def commanded (cfg : BGPConfig) (frr : Trace → FrrWorld) (eff : CommandEffects)
    (w : Trace × Router) (e : CallEvent) : Trace × Router :=
  (w.1 ++ [e], eff.router w.2 (commandTrace cfg (frr w.1) e.call))

def routerAfter (cfg : BGPConfig) (frr : Trace → FrrWorld) (eff : CommandEffects) (r : Router)
    (h : Trace) : Router :=
  (replay (commanded cfg frr eff) ([], r) h).2

section Engine
variable {frr : Trace → FrrWorld} {h : Trace} {e : CallEvent} {pfx : String}

theorem routerAfter_snoc : routerAfter cfg frr eff r (h ++ [e]) =
    eff.router (routerAfter cfg frr eff r h) (commandTrace cfg (frr h) e.call) := by
  have hpast : ∀ (w : Trace × Router) (t : Trace),
      (replay (commanded cfg frr eff) w t).1 = w.1 ++ t := by
    intro w t
    induction t generalizing w with
    | nil => simp
    | cons a t ih =>
      rw [replay_cons, ih, commanded, List.append_assoc, List.singleton_append]
  unfold routerAfter
  rw [replay_append, replay_cons, replay_nil, commanded, hpast, List.nil_append]

theorem networks_ip (r : Router) (args : List String) :
    (r.act (.ip args)).networks = r.networks := by
  unfold Router.act
  split
  · next heq => cases heq
  · rfl
  · rfl
  · rfl

/-- After the network statement an announcement changes routes only. -/
theorem announce_shape (O : FrrWorld) (cfg : BGPConfig) (route : BGPRoute) :
    ∃ t, (run O (announce cfg route) ()).2.2 = configured O cfg route.pfx :: t ∧
      (∀ a ∈ t, ∃ args, a.call = .ip args) ∧
      ((run O (announce cfg route) ()).1 = .ok () →
        ∃ p, (configured O cfg route.pfx).reply = .ok p ∧ p.returncode = 0) := by
  cases hv : (configured O cfg route.pfx).reply with
  | error e =>
    rw [run_announce_of_error hv]
    exact ⟨[], rfl, by simp, nofun⟩
  | ok p =>
    by_cases hp : p.returncode = 0
    · cases hvia : route.nextHop with
      | none =>
        rw [run_announce_of_none hv hp hvia]
        exact ⟨[], rfl, by simp, fun _ => ⟨p, rfl, hp⟩⟩
      | some via =>
        rw [run_announce_of_some hv hp hvia]
        refine ⟨[injected O cfg route.pfx via], rfl, ?_, fun _ => ⟨p, rfl, hp⟩⟩
        intro a ha
        rw [List.mem_singleton.1 ha]
        exact ⟨_, rfl⟩
    · rw [run_announce_of_failed hv hp]
      exact ⟨[], rfl, by simp, nofun⟩

theorem networks_router {t : FrrTrace} (ht : ∀ a ∈ t, ∃ args, a.call = .ip args) (r : Router) :
    (eff.router r t).networks = r.networks := by
  refine replay_invariant eff.apply (fun r' => r'.networks = r.networks) (fun r' a ha hr' => ?_) rfl
  obtain ⟨args, hargs⟩ := ht a ha
  by_cases htook : eff.took a = true
  · rw [apply_of_took htook, hargs, networks_ip, hr']
  · rw [apply_of_not_took htook, hr']

theorem networks_announce (eff : CommandEffects) (O : FrrWorld) (cfg : BGPConfig)
    (route : BGPRoute) (r : Router) (q : String) :
    (r.networks q = true →
        (eff.router r (run O (announce cfg route) ()).2.2).networks q = true) ∧
      ((run O (announce cfg route) ()).1 = .ok () →
        (eff.router r (run O (announce cfg route) ()).2.2).networks route.pfx = true) := by
  obtain ⟨t, htrace, ht, hok⟩ := announce_shape O cfg route
  have hrouter : (eff.router r (run O (announce cfg route) ()).2.2).networks =
      (eff.apply r (configured O cfg route.pfx)).networks := by
    rw [htrace]
    exact networks_router ht _
  rw [hrouter]
  constructor
  · intro hq
    by_cases htook : eff.took (configured O cfg route.pfx) = true
    · rw [apply_of_took htook, configured, Router.act_network]
      by_cases heq : q = route.pfx
      · exact if_pos heq
      · exact (if_neg heq).trans hq
    · rw [apply_of_not_took htook]
      exact hq
  · intro hreturned
    obtain ⟨p, hv, hp⟩ := hok hreturned
    rw [apply_of_took (by rw [took_of_reply eff hv, decide_eq_true hp]), configured,
      Router.act_network]
    exact if_pos rfl

theorem networks_of_announced {bgp : BGPConfig} {O : World} (eff : CommandEffects) (r : Router)
    (hcalls : ∀ a ∈ h, ∀ q, a.call ≠ .withdraw q)
    (hreplies : ∀ pre a, pre ++ [a] <+: h → a.reply = onRouter bgp frr O pre a.call)
    (hannounced : History.Has (Announced pfx) h) :
    (routerAfter bgp frr eff r h).networks pfx = true := by
  induction h using List.reverseRecOn with
  | nil => simp [History.Has] at hannounced
  | append_singleton h a ih =>
    have hcalls' : ∀ b ∈ h, ∀ q, b.call ≠ .withdraw q :=
      fun b hb => hcalls b (List.mem_append_left _ hb)
    have hreplies' : ∀ pre b, pre ++ [b] <+: h → b.reply = onRouter bgp frr O pre b.call :=
      fun pre b hpre => hreplies pre b (hpre.trans (List.prefix_append _ _))
    have hreply := hreplies h a List.prefix_rfl
    have hnot := hcalls a (by simp)
    have hkept : (routerAfter bgp frr eff r h).networks pfx = true →
        (routerAfter bgp frr eff r (h ++ [a])).networks pfx = true := by
      intro hold
      rw [routerAfter_snoc]
      obtain ⟨c, reply⟩ := a
      cases c with
      | announce route => exact (networks_announce eff (frr h) bgp route _ pfx).1 hold
      | withdraw q => exact absurd rfl (hnot q)
      | _ => exact hold
    rcases has_snoc.1 hannounced with hearlier | ⟨hop, rfl⟩
    · exact hkept (ih hcalls' hreplies' hearlier)
    · rw [routerAfter_snoc]
      exact (networks_announce eff (frr h) bgp ⟨pfx, hop⟩ _ pfx).2 hreply.symm

end Engine

/-- After a migration that succeeds the router has a network statement of every address. -/
theorem networks_of_true (kind : MigrationType) (cfg : Settings) (ctx : MigrationContext)
    (bgp : BGPConfig) (frr : Trace → FrrWorld) (O : World) (eff : CommandEffects) (r : Router)
    (hres : (kind.migrate cfg ctx (onRouter bgp frr O)).result = .ok true) :
    ∀ pfx ∈ routePrefixes (kind.migrate cfg ctx (onRouter bgp frr O)).state,
      (routerAfter bgp frr eff r
        (kind.migrate cfg ctx (onRouter bgp frr O)).trace).networks pfx = true := by
  intro pfx hpfx
  have hover := wp_of_true kind (wp_body_routes kind cfg ctx) hres rfl
  refine networks_of_announced eff r (fun a ha q hq => ?_) (fun pre a hpre => reply_of_run hpre)
    (hover.announced pfx hpfx)
  have hcall := hover.calls a ha
  rw [hq] at hcall
  exact hcall

end NovaFederation
