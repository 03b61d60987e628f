import NovaFederation.CallOrder
import NovaFederation.MigrationModel
import NovaFederation.PyString

/-!
# The client of the router

`FRRClient` writes a network statement through `vtysh` and a kernel route through `ip`. It looks
at the exit code of the first command and not at that of the second.

`Router` is what the two commands change: the network statements of the BGP speaker and the routes
of the kernel. A command takes effect when it exits with zero and does not when it exits with
another code; of one that raises either may be true, so the router is relative to `CommandEffects`.
-/

namespace NovaFederation
open Coroutine History

structure BGPConfig where
  asNumber : ℤ

/-- What `subprocess.run` returns, as far as the client reads it. -/
structure CompletedProcess where
  returncode : ℤ
  stderr : String := ""

/-- The commands of the client: the lines given to `vtysh`, and the arguments of `ip`. -/
inductive FrrCall
  | vtysh (commands : List String)
  | ip (args : List String)
  deriving DecidableEq

@[reducible] def FrrCall.Reply : FrrCall → Type := fun _ => CompletedProcess

abbrev Frr := Coroutine Unit PyException FrrCall FrrCall.Reply
abbrev FrrEvent := Event PyException FrrCall FrrCall.Reply
abbrev FrrTrace := History PyException FrrCall FrrCall.Reply
abbrev FrrWorld := Oracle PyException FrrCall FrrCall.Reply

namespace FRRClient

abbrev frr (c : FrrCall) : Frr c.Reply := perform c

def networkStatement (pfx : String) : String := s!"  network {pfx}"

def noNetworkStatement (pfx : String) : String := s!"  no network {pfx}"

/-- A statement of the unicast address family, from the prompt and back. -/
def inAddressFamily (cfg : BGPConfig) (statement : String) : List String :=
  ["configure terminal", s!"router bgp {cfg.asNumber}", " address-family ipv4 unicast", statement,
    " exit-address-family", "exit"]

/-- `_vtysh`, whose output neither caller reads. -/
def vtysh (commands : List String) : Frr Unit := do
  let result ← frr (.vtysh commands)
  if result.returncode ≠ 0 then
    throw ⟨.bgpError, s!"vtysh failed: {PyString.trim result.stderr}"⟩

/-- `subprocess.run` takes no argument that is `None`. -/
def noneArgument : PyException :=
  ⟨.other, "expected str, bytes or os.PathLike object, not NoneType"⟩

def addKernelRoute (pfx : String) : Option String → Frr Unit
  | some via => do let _ ← frr (.ip ["route", "replace", pfx, "via", via])
  | none => throw noneArgument

def removeKernelRoute (pfx : String) : Frr Unit := do
  let _ ← frr (.ip ["route", "del", pfx])

def announce (cfg : BGPConfig) (route : BGPRoute) : Frr Unit := do
  vtysh (inAddressFamily cfg (networkStatement route.pfx))
  -- also inject into the kernel, so that the prefix is reachable
  addKernelRoute route.pfx route.nextHop

def withdraw (cfg : BGPConfig) (pfx : String) : Frr Unit := do
  vtysh (inAddressFamily cfg (noNetworkStatement pfx))
  removeKernelRoute pfx

end FRRClient

open FRRClient

/-! ### The exit code of `vtysh` -/

section Vtysh
variable {O : FrrWorld} {commands : List String} {h : FrrTrace} {p : CompletedProcess}

theorem exec_vtysh_of_error {e : PyException} (hv : O h (.vtysh commands) = .error e) :
    exec O (vtysh commands) () h = (.error e, (), h ++ [⟨.vtysh commands, .error e⟩]) := by
  unfold vtysh
  rw [exec_bind, exec_perform_of_error hv]

theorem exec_vtysh_of_failed (hv : O h (.vtysh commands) = .ok p) (hp : p.returncode ≠ 0) :
    exec O (vtysh commands) () h =
      (.error ⟨.bgpError, s!"vtysh failed: {PyString.trim p.stderr}"⟩, (),
        h ++ [⟨.vtysh commands, .ok p⟩]) := by
  unfold vtysh
  rw [exec_bind, exec_perform_of_ok hv]
  simp only [if_pos hp]
  rfl

theorem exec_vtysh_of_zero (hv : O h (.vtysh commands) = .ok p) (hp : p.returncode = 0) :
    exec O (vtysh commands) () h = (.ok (), (), h ++ [⟨.vtysh commands, .ok p⟩]) := by
  unfold vtysh
  rw [exec_bind, exec_perform_of_ok hv]
  simp only [hp, ne_eq, not_true_eq_false, if_false]
  rfl

end Vtysh

/-! ### The router -/

/-- The prefixes with a network statement, and the gateway of each prefix in the kernel. -/
structure Router where
  networks : String → Bool
  routes : String → Option String

namespace Router

def act (r : Router) : FrrCall → Router
  | .vtysh commands =>
    { r with networks := fun pfx =>
        if networkStatement pfx ∈ commands then true
        else if noNetworkStatement pfx ∈ commands then false
        else r.networks pfx }
  | .ip ["route", "replace", pfx, "via", via] =>
    { r with routes := fun q => if q = pfx then some via else r.routes q }
  | .ip ["route", "del", pfx] => { r with routes := fun q => if q = pfx then none else r.routes q }
  | .ip _ => r

end Router

/-- The commands that took effect. -/
structure CommandEffects where
  took : FrrEvent → Bool
  of_exit : ∀ c p, took ⟨c, .ok p⟩ = decide (p.returncode = 0)

namespace CommandEffects

def unstarted : CommandEffects where
  took
    | ⟨_, .ok p⟩ => decide (p.returncode = 0)
    | ⟨_, .error _⟩ => false
  of_exit _ _ := rfl

variable (eff : CommandEffects)

def apply (r : Router) (e : FrrEvent) : Router := if eff.took e then r.act e.call else r

def router (r : Router) (h : FrrTrace) : Router := replay eff.apply r h

end CommandEffects

namespace Router
variable {cfg : BGPConfig} {pfx q : String}

/-! ### What the commands of the client do -/

theorem toList_networkStatement (pfx : String) :
    (networkStatement pfx).toList = "  network ".toList ++ pfx.toList := String.toList_append

theorem toList_noNetworkStatement (pfx : String) :
    (noNetworkStatement pfx).toList = "  no network ".toList ++ pfx.toList := String.toList_append

theorem mem_inAddressFamily {line statement : String}
    (hline : line.toList.take 3 = [' ', ' ', 'n']) :
    line ∈ inAddressFamily cfg statement ↔ line = statement := by
  constructor
  · intro hmem
    have hrouter : (s!"router bgp {cfg.asNumber}").toList =
        "router bgp ".toList ++ (toString cfg.asNumber).toList := String.toList_append
    simp only [inAddressFamily, List.mem_cons, List.not_mem_nil, or_false] at hmem
    rcases hmem with rfl | rfl | rfl | heq | rfl | rfl
    · exact absurd hline (by decide)
    · rw [hrouter] at hline
      exact absurd hline (by simp)
    · exact absurd hline (by decide)
    · exact heq
    · exact absurd hline (by decide)
    · exact absurd hline (by decide)
  · rintro rfl
    simp [inAddressFamily]

theorem mem_network_iff {statement : String} :
    networkStatement q ∈ inAddressFamily cfg statement ↔ networkStatement q = statement :=
  mem_inAddressFamily (by rw [toList_networkStatement]; rfl)

theorem mem_noNetwork_iff {statement : String} :
    noNetworkStatement q ∈ inAddressFamily cfg statement ↔ noNetworkStatement q = statement :=
  mem_inAddressFamily (by rw [toList_noNetworkStatement]; rfl)

theorem networkStatement_inj : networkStatement q = networkStatement pfx ↔ q = pfx := by
  constructor
  · intro h
    have htext := congrArg String.toList h
    rw [toList_networkStatement, toList_networkStatement] at htext
    exact String.toList_inj.1 (List.append_cancel_left htext)
  · rintro rfl
    rfl

theorem networkStatement_ne : networkStatement q ≠ noNetworkStatement pfx := by
  intro h
  have htext := congrArg (·.toList[3]?) h
  simp only [toList_networkStatement, toList_noNetworkStatement] at htext
  exact absurd htext (by simp)

theorem act_network (r : Router) (cfg : BGPConfig) (pfx : String) :
    r.act (.vtysh (inAddressFamily cfg (networkStatement pfx))) =
      { r with networks := fun q => if q = pfx then true else r.networks q } := by
  simp only [act, mem_network_iff, mem_noNetwork_iff, networkStatement_inj,
    networkStatement_ne.symm, if_false]

end Router

end NovaFederation
