import Mathlib.Data.List.AList
import NovaFederation.Exclusivity

/-!
# Agents that start and crash

An agent that starts puts its address in etcd, under a key of its own and without a lease, and only
then joins the election. A process can end at any time. What it has asked of etcd may still be
executed, its lease lives on, and the next process of the same agent knows of neither.
-/

namespace NovaFederation
open Coroutine Schedule
variable {N : Type} {n : N} {k : Etcd N} {node : Node N}

namespace RaftElection

def masterKey : String := "/cnf/raft/master"

def peersPrefix : String := "/cnf/raft/peers/"

def peerKey (clusterId : String) : String := peersPrefix ++ clusterId

end RaftElection

open RaftElection

structure Registry (N : Type) where
  electorate : Electorate N
  keys : AList fun _ : String => String := ∅

inductive RegistryAct (N : Type)
  | start (n : N) (grpcAddr : String) (fault : Option Fault)
  | elect (a : ElectionAct N)
  | crash (n : N)
  deriving DecidableEq

def putPeer (keys : AList fun _ : String => String) (fault : Option Fault)
    (clusterId grpcAddr : String) : (AList fun _ : String => String) × Except PyException Unit :=
  match fault with
  | none => (keys.insert (peerKey clusterId) grpcAddr, .ok ())
  | some .request => (keys, .error unavailable)
  | some .reply => (keys.insert (peerKey clusterId) grpcAddr, .error unavailable)

def Node.respawn (node : Node N) (grpcAddr : String) : Node N where
  agent := { election := { clusterId := node.election.clusterId, grpcAddr } }
  orphans := node.orphans + node.abandoned

namespace Registry
variable [DecidableEq N]

/-- `start` of the election. When the key cannot be put, the process ends. -/
def register (s : Registry N) (n : N) (grpcAddr : String) (fault : Option Fault) :
    Option (Registry N) :=
  let node := (s.electorate.nodes n).respawn grpcAddr
  if (s.electorate.nodes n).election.running then none
  else match settle node.agent RaftElection.start with
    | (agent, .waiting (.registerPeer clusterId addr) next) =>
      let answer := putPeer s.keys fault clusterId addr
      match settle agent (next answer.2) with
      | (agent, .done (.ok _)) => some ⟨s.electorate.put n { node with agent }, answer.1⟩
      | _ => some ⟨s.electorate.put n node, answer.1⟩
    | _ => none

def step (s : Registry N) : RegistryAct N → Option (Registry N)
  | .start n grpcAddr fault => s.register n grpcAddr fault
  | .elect a => (s.electorate.step a).map fun electorate => { s with electorate }
  | .crash n => some { s with
      electorate := s.electorate.put n ((s.electorate.nodes n).respawn "") }

omit [DecidableEq N] in
def initial (clusterId : N → String) : Registry N where
  electorate := { Electorate.start clusterId fun _ => "" with
    nodes := fun n => { agent := { election := { clusterId := clusterId n, grpcAddr := "" } } } }

/-- A completed heartbeat as master has found its key in etcd; and of two agents that have completed
a heartbeat since the key last changed, one is no master. -/
def Exclusive (_ : Registry N) (a : RegistryAct N) (s' : Registry N) : Prop :=
  (∀ n, a = .elect (.deliver n) → (s'.electorate.nodes n).heartbeat.isNone →
    (s'.electorate.nodes n).role = .master →
    ∃ k ∈ (s'.electorate.nodes n).last, (s'.electorate.nodes n).Held k) ∧
  ∀ n m, s'.electorate.Recent n → s'.electorate.Recent m →
    (s'.electorate.nodes n).role = .master → (s'.electorate.nodes m).role = .master → n = m

/-- No answer without time to live is delivered. -/
def Renewed (s : Registry N) (a : RegistryAct N) (_ : Registry N) : Prop :=
  ∀ n, a = .elect (.deliver n) → (s.electorate.nodes n).expired = false

end Registry

/-! ### What starting and crashing do -/

namespace Node

def respawned (node : Node N) (grpcAddr : String) (running : Bool) : Node N :=
  { node.respawn grpcAddr with
    agent := { election :=
      { clusterId := node.election.clusterId, grpcAddr, running, loopTask := running } } }

theorem sound_respawned (k : Etcd N) (n : N) (node : Node N) (grpcAddr : String) (running : Bool) :
    (node.respawned grpcAddr running).Sound k n := by
  have hheartbeat : (node.respawned grpcAddr running).heartbeat = none := rfl
  have hrequests : (node.respawned grpcAddr running).requests = [] := rfl
  refine ⟨by simp [respawned], nofun, nofun, nofun, ?_, ?_⟩
  · simp [hheartbeat]
  · simp [hrequests]

end Node

namespace Registry
variable [DecidableEq N] {s s' : Registry N} {a : RegistryAct N}

theorem register_eq_some {grpcAddr : String} {fault : Option Fault}
    (h : s.register n grpcAddr fault = some s') :
    s'.keys = (putPeer s.keys fault (s.electorate.nodes n).election.clusterId grpcAddr).1 ∧
      s'.electorate =
        s.electorate.put n ((s.electorate.nodes n).respawned grpcAddr fault.isNone) := by
  unfold register at h
  split_ifs at h
  rcases fault with _ | _ | _
  · obtain rfl := Option.some.inj h
    exact ⟨rfl, rfl⟩
  · obtain rfl := Option.some.inj h
    exact ⟨rfl, rfl⟩
  · obtain rfl := Option.some.inj h
    exact ⟨rfl, rfl⟩

theorem step_cases (h : s.step a = some s') :
    (∃ b, a = .elect b ∧ s.electorate.step b = some s'.electorate ∧ s'.keys = s.keys) ∨
    (∀ b, a ≠ .elect b) ∧ ∃ n grpcAddr running, s'.electorate =
      s.electorate.put n ((s.electorate.nodes n).respawned grpcAddr running) := by
  cases a with
  | start n grpcAddr fault =>
    exact .inr ⟨nofun, n, grpcAddr, fault.isNone, (register_eq_some h).2⟩
  | elect b =>
    obtain ⟨electorate, hb, rfl⟩ := Option.map_eq_some_iff.1 h
    exact .inl ⟨b, rfl, hb, rfl⟩
  | crash n =>
    obtain rfl := Option.some.inj h
    exact .inr ⟨nofun, n, "", false, rfl⟩

theorem sound_step (hs : s.electorate.Sound) (h : s.step a = some s') : s'.electorate.Sound := by
  rcases step_cases h with ⟨b, -, hb, -⟩ | ⟨-, n, grpcAddr, running, heq⟩
  · exact Electorate.sound_step hs hb
  · rw [heq]
    exact Electorate.sound_put hs (.refl _) (Node.sound_respawned _ n _ grpcAddr running)

omit [DecidableEq N] in
theorem sound_initial (clusterId : N → String) : (initial clusterId).electorate.Sound :=
  fun n => Node.sound_respawned _ n
    { agent := { election := { clusterId := clusterId n, grpcAddr := "" } } } "" false

/-! ### Two masters -/

theorem fresh_step (hs : s.electorate.Sound)
    (hf : ∀ n, Node.Fresh s.electorate.etcd (s.electorate.nodes n)) (h : s.step a = some s')
    (hr : s.Renewed a s') : ∀ n, Node.Fresh s'.electorate.etcd (s'.electorate.nodes n) := by
  rcases step_cases h with ⟨b, rfl, hb, -⟩ | ⟨-, n, grpcAddr, running, heq⟩
  · exact Electorate.fresh_step hs hf hb fun n hn => hr n (congrArg _ hn)
  · rw [heq]
    exact Electorate.forall_put (P := fun _ node => Node.Fresh s.electorate.etcd node) nofun hf

theorem exclusive_of_renewed (hs : s.electorate.Sound)
    (hf : ∀ n, Node.Fresh s.electorate.etcd (s.electorate.nodes n)) (h : s.step a = some s')
    (hr : s.Renewed a s') : s.Exclusive a s' := by
  refine ⟨?_, fun n m => Electorate.unique_of_fresh (sound_step hs h) (fresh_step hs hf h hr)⟩
  rintro n rfl
  obtain ⟨electorate, hb, rfl⟩ := Option.map_eq_some_iff.1 h
  exact (Electorate.exclusive_of_renewed hs hf hb
    fun m hm => hr m (congrArg _ hm)).1 n rfl

theorem renewed_of_exclusive (hs : s.electorate.Sound) (h : s.step a = some s')
    (he : s.Exclusive a s') : s.Renewed a s' := by
  rintro n rfl
  obtain ⟨electorate, hb, rfl⟩ := Option.map_eq_some_iff.1 h
  refine Electorate.renewed_of_exclusive hs hb ⟨fun m hm => ?_, he.2⟩ n rfl
  exact he.1 m (congrArg _ hm)

end Registry

open Registry in
/-- Whatever agents start, crash and start again, as long as nobody is answered that its lease has
no time left to live, and only so long, a completed heartbeat as master means that etcd has the
key. -/
theorem restarts_exclusive_iff [DecidableEq N] (clusterId : N → String)
    (acts : List (RegistryAct N)) :
    Along Registry.step Registry.Exclusive (initial clusterId) acts ↔
      Along Registry.step Registry.Renewed (initial clusterId) acts := by
  have hs := sound_initial clusterId
  constructor
  · intro he
    exact he.imp (fun s => s.electorate.Sound)
      (fun _ _ _ h hs he => ⟨renewed_of_exclusive hs h he, sound_step hs h⟩) hs
  · intro hr
    refine hr.imp (fun s => s.electorate.Sound ∧
      ∀ n, Node.Fresh s.electorate.etcd (s.electorate.nodes n)) ?_ ⟨hs, fun _ => nofun⟩
    rintro _ _ _ h ⟨hs, hf⟩ hr
    exact ⟨exclusive_of_renewed hs hf h hr, sound_step hs h, fresh_step hs hf h hr⟩

end NovaFederation
