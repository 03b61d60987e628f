import Mathlib.Logic.Function.Basic
import NovaFederation.Heartbeat
import NovaFederation.LeasedKey
import NovaFederation.Schedule

/-!
# Masters and the key in etcd

Any number of agents share one etcd. Between two steps of an agent everything may happen: its
lease expires, an administrator or a shutdown revokes it, another agent puts the key. Etcd
executes a request and the agent learns of the answer in two different steps.

A master whose lease is gone still gets an answer to its refresh, with no time left to live, and
goes on. As long as no such answer is delivered, a completed heartbeat as master means that etcd
had the key under the agent's lease.
-/

namespace NovaFederation
open Coroutine Schedule
variable {N : Type}

abbrev Job (N : Type) :=
  Suspended (CNFAgent (Lease N)) PyException AgentCall (AgentCall.Reply (Lease N)) Unit

abbrev Etcd (N : Type) := LeasedKey N String

/-- An agent. `requests` are calls of `force_elect` and `stop` that wait for the revocation, and
`orphans` counts jobs that were left in the executor when their heartbeat was cancelled. `seen`
and `last` record etcd as it was after the latest request of the present heartbeat and of the
last completed one. -/
structure Node (N : Type) where
  agent : CNFAgent (Lease N)
  heartbeat : Option (Job N) := none
  requests : List (Job N) := []
  orphans : ℕ := 0
  seen : Option (Etcd N) := none
  last : Option (Etcd N) := none

structure Electorate (N : Type) where
  etcd : Etcd N
  nodes : N → Node N

inductive Fault
  | request
  | reply
  deriving DecidableEq

inductive ElectionAct (N : Type)
  | beat (n : N)
  | serve (n : N) (fault : Option Fault) (remaining : ℕ)
  | deliver (n : N)
  | forceElect (n : N) (target : String)
  | stop (n : N)
  | finish (n : N) (i : ℕ) (fault : Option Fault)
  | orphan (n : N)
  | expire (lease : Lease N)
  deriving DecidableEq

/-- `self._lease.id` without a lease. -/
def noLease : PyException := ⟨.attributeError, "'NoneType' object has no attribute 'id'"⟩

def AgentCall.onEtcd : AgentCall → Bool
  | .acquire _ => true
  | .readMaster => true
  | .refreshLease => true
  | .revokeLease => true
  | _ => false

variable [DecidableEq N]

def execute (n : N) (agent : CNFAgent (Lease N)) (remaining : ℕ) (k : Etcd N) :
    (c : AgentCall) → Etcd N × Except PyException (c.Reply (Lease N))
  | .initDb => (k, .ok ())
  | .upsertSelfCluster => (k, .ok ())
  | .registerPeer _ _ => (k, .ok ())
  | .startGrpc => (k, .ok ())
  | .acquire clusterId => (k.acquire n clusterId, .ok (k.entry.isNone, k.nextLease n))
  | .readMaster => (k, .ok (match k.entry with
    | some e => e.1
    | none => ""))
  | .refreshLease =>
    match agent.election.lease with
    | some lease => (k, .ok (k.timeToLive lease remaining))
    | none => (k, .error noLease)
  | .revokeLease =>
    match agent.election.lease with
    | some lease => (k.drop lease, .ok ())
    | none => (k, .error noLease)
  | .writeRole _ => (k, .ok ())

def faulty (fault : Option Fault) (n : N) (agent : CNFAgent (Lease N)) (remaining : ℕ)
    (k : Etcd N) (c : AgentCall) : Etcd N × Except PyException (c.Reply (Lease N)) :=
  match fault with
  | none => execute n agent remaining k c
  | some .request => (k, .error unavailable)
  | some .reply => ((execute n agent remaining k c).1, .error unavailable)

namespace Node
variable (node : Node N)

def proceed : CNFAgent (Lease N) × Paused (CNFAgent (Lease N)) PyException AgentCall
    (AgentCall.Reply (Lease N)) Unit → Node N
  | (agent, .done _) => { node with agent, heartbeat := none, last := node.seen }
  | (agent, .waiting call next) => { node with agent, heartbeat := some ⟨call, next, none⟩ }

def beat : Option (Node N) :=
  if node.agent.election.running ∧ node.heartbeat.isNone then
    some ({ node with seen := none }.proceed (settle node.agent RaftElection.electionRound))
  else none

def deliver : Option (Node N) :=
  match node.heartbeat with
  | some ⟨_, next, some reply⟩ => some (node.proceed (settle node.agent (next reply)))
  | _ => none

def submit : CNFAgent (Lease N) × Paused (CNFAgent (Lease N)) PyException AgentCall
    (AgentCall.Reply (Lease N)) Unit → Node N
  | (agent, .done _) => { node with agent }
  | (agent, .waiting call next) =>
    { node with agent, requests := ⟨call, next, none⟩ :: node.requests }

def forceElect (target : String) : Node N :=
  node.submit (settle node.agent do
    let _ ← RaftElection.forceElect target
    pure ())

/-- The job `_acquire` of a cancelled heartbeat is not cancelled with it. -/
def abandoned : ℕ :=
  match node.heartbeat with
  | some ⟨.acquire _, _, none⟩ => 1
  | _ => 0

def stop : Node N :=
  { node with heartbeat := none, orphans := node.orphans + node.abandoned }.submit
    (settle node.agent RaftElection.stop)

end Node

namespace Electorate
variable (s : Electorate N)

def put (n : N) (node : Node N) : Electorate N :=
  { s with nodes := Function.update s.nodes n node }

def serve (n : N) (fault : Option Fault) (remaining : ℕ) : Option (Electorate N) :=
  match (s.nodes n).heartbeat with
  | some ⟨call, next, none⟩ =>
    let answer := faulty fault n (s.nodes n).agent remaining s.etcd call
    some ({ s with etcd := answer.1 }.put n { s.nodes n with
      heartbeat := some ⟨call, next, some answer.2⟩
      seen := if call.onEtcd then some answer.1 else (s.nodes n).seen })
  | _ => none

def finish (n : N) (i : ℕ) (fault : Option Fault) : Option (Electorate N) :=
  match (s.nodes n).requests[i]? with
  | some job =>
    let answer := faulty fault n (s.nodes n).agent 0 s.etcd job.call
    some ({ s with etcd := answer.1 }.put n
      ({ s.nodes n with requests := (s.nodes n).requests.eraseIdx i }.submit
        (settle (s.nodes n).agent (job.next answer.2))))
  | none => none

def orphan (n : N) : Option (Electorate N) :=
  if (s.nodes n).orphans = 0 then none
  else some ({ s with
    etcd := s.etcd.acquire n (s.nodes n).agent.election.clusterId }.put n
      { s.nodes n with orphans := (s.nodes n).orphans - 1 })

def step : ElectionAct N → Option (Electorate N)
  | .beat n => (s.nodes n).beat.map (s.put n)
  | .serve n fault remaining => s.serve n fault remaining
  | .deliver n => (s.nodes n).deliver.map (s.put n)
  | .forceElect n target => some (s.put n ((s.nodes n).forceElect target))
  | .stop n => some (s.put n (s.nodes n).stop)
  | .finish n i fault => s.finish n i fault
  | .orphan n => s.orphan n
  | .expire lease => some { s with etcd := s.etcd.drop lease }

def start (clusterId grpcAddr : N → String) : Electorate N where
  etcd := {}
  nodes n := { agent := { election :=
    { clusterId := clusterId n, grpcAddr := grpcAddr n, running := true, loopTask := true } } }

end Electorate

/-! ### Holding the key -/

namespace Node
variable (node : Node N)

abbrev election : RaftElection (Lease N) := node.agent.election

abbrev role : NodeRole := node.election.state.role

/-- Etcd has the key of this agent under its present lease, and the lease is live. -/
def Held (k : Etcd N) : Prop :=
  ∃ lease ∈ node.election.lease, lease ∈ k.live ∧ k.entry = some (node.election.clusterId, lease)

def expired : Bool :=
  match node.heartbeat with
  | some ⟨.refreshLease, _, some (.ok ttl)⟩ => ttl = 0
  | _ => false

end Node

/-- The request of the last completed heartbeat came after the last change of the key. -/
def Electorate.Recent (s : Electorate N) (n : N) : Prop :=
  ∃ k ∈ (s.nodes n).last, k.revision = s.etcd.revision

/-- A heartbeat that is completed as master found its key in etcd; and of two agents that have
completed a heartbeat since the key last changed, one is no master. -/
def Electorate.Exclusive (_ : Electorate N) (a : ElectionAct N) (s' : Electorate N) : Prop :=
  (∀ n, a = .deliver n → (s'.nodes n).heartbeat.isNone → (s'.nodes n).role = .master →
    ∃ k ∈ (s'.nodes n).last, (s'.nodes n).Held k) ∧
  ∀ n m, s'.Recent n → s'.Recent m → (s'.nodes n).role = .master →
    (s'.nodes m).role = .master → n = m

/-- No answer without time to live is delivered. -/
def Electorate.Renewed (s : Electorate N) (a : ElectionAct N) (_ : Electorate N) : Prop :=
  ∀ n, a = .deliver n → (s.nodes n).expired = false

end NovaFederation
