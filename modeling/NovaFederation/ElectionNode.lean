import NovaFederation.Electorate

/-!
# One election node and its history

A single `RaftElection` whose calls the world answers as it likes: a heartbeat wins or loses the
election, observes a master, refreshes its lease or fails to, and either callback may raise. Calls
of `force_elect` and `stop` come in between, also while a heartbeat waits. The revocation that
they ask for is executed by etcd or not, and the caller hears of it later or not at all.

Three fields of a node are no fields of the source. `revoked` lists the leases that etcd has
revoked, `callbacks` the callbacks that were called, by the role that they announce, and
`verdicts` the calls of `force_elect` that have returned.
-/

namespace NovaFederation
open Coroutine Schedule
variable {L : Type}

/-- A call of `force_elect` that waits, with what the node was when it was called. -/
structure Transfer (L : Type) where
  job : Suspended (CNFAgent L) PyException AgentCall (AgentCall.Reply L) Bool
  calledAs : NodeRole
  lease : Option L

structure Verdict (L : Type) where
  result : Bool
  calledAs : NodeRole
  lease : Option L
  revoked : List L
  role : NodeRole

/-- `True` was returned to a master whose lease has been revoked, and who is master no longer. -/
def Verdict.Honest (v : Verdict L) : Prop :=
  v.result = true →
    v.calledAs = .master ∧ (∃ lease ∈ v.lease, lease ∈ v.revoked) ∧ v.role ≠ .master

structure ElectionNode (L : Type) where
  agent : CNFAgent L
  heartbeat : Option (Suspended (CNFAgent L) PyException AgentCall (AgentCall.Reply L) Unit) := none
  transfers : List (Transfer L) := []
  stops : List (Suspended (CNFAgent L) PyException AgentCall (AgentCall.Reply L) Unit) := []
  revoked : List L := []
  callbacks : List NodeRole := []
  verdicts : List (Verdict L) := []

inductive NodeAct (L : Type)
  | beat
  | answer (answers : Answers PyException AgentCall (AgentCall.Reply L))
  | forceElect (target : String)
  | revoke (i : ℕ) (fault : Option Fault)
  | conclude (i : ℕ)
  | stop
  | finish (i : ℕ) (fault : Option Fault)

/-- Both callbacks begin with the write of the role that they announce. -/
def AgentCall.announces : AgentCall → Option NodeRole
  | .writeRole role => some role
  | _ => none

namespace ElectionNode
variable (node : ElectionNode L)

abbrev role : NodeRole := node.agent.role

abbrev masterId : String := node.agent.election.state.masterId

/-- The coroutine of the heartbeat has come to its next await or to its end. -/
def proceed : CNFAgent L × Paused (CNFAgent L) PyException AgentCall (AgentCall.Reply L) Unit →
    ElectionNode L
  | (agent, .done _) => { node with agent, heartbeat := none }
  | (agent, .waiting call next) => { node with
      agent
      heartbeat := some ⟨call, next, none⟩
      callbacks := node.callbacks ++ call.announces.toList }

def beat : Option (ElectionNode L) :=
  if node.agent.election.running ∧ node.heartbeat.isNone then
    some (node.proceed (settle node.agent RaftElection.electionRound))
  else none

def answer (answers : Answers PyException AgentCall (AgentCall.Reply L)) :
    Option (ElectionNode L) :=
  node.heartbeat.map fun job => node.proceed (settle node.agent (job.next (answers job.call)))

def decided (calledAs : NodeRole) (lease : Option L) :
    CNFAgent L × Paused (CNFAgent L) PyException AgentCall (AgentCall.Reply L) Bool →
      ElectionNode L
  | (agent, .done (.ok result)) => { node with
      agent
      verdicts := node.verdicts ++ [⟨result, calledAs, lease, node.revoked, agent.role⟩] }
  | (agent, .done (.error _)) => { node with agent }
  | (agent, .waiting call next) => { node with
      agent
      transfers := ⟨⟨call, next, none⟩, calledAs, lease⟩ :: node.transfers }

def forceElect (target : String) : ElectionNode L :=
  node.decided node.role node.agent.election.lease
    (settle node.agent (RaftElection.forceElect target))

/-- The job on the lease reads `self._lease` when it is executed. -/
def revocation (fault : Option Fault) : List L × Except PyException Unit :=
  match node.agent.election.lease, fault with
  | none, _ => (node.revoked, .error noLease)
  | some lease, none => (lease :: node.revoked, .ok ())
  | some _, some .request => (node.revoked, .error unavailable)
  | some lease, some .reply => (lease :: node.revoked, .error unavailable)

def revoke (i : ℕ) (fault : Option Fault) : Option (ElectionNode L) :=
  match node.transfers[i]? with
  | some ⟨⟨.revokeLease, next, none⟩, calledAs, lease⟩ => some { node with
      revoked := (node.revocation fault).1
      transfers := node.transfers.set i
        ⟨⟨.revokeLease, next, some (node.revocation fault).2⟩, calledAs, lease⟩ }
  | _ => none

def conclude (i : ℕ) : Option (ElectionNode L) :=
  match node.transfers[i]? with
  | some ⟨⟨_, next, some reply⟩, calledAs, lease⟩ =>
    some ({ node with transfers := node.transfers.eraseIdx i }.decided calledAs lease
      (settle node.agent (next reply)))
  | _ => none

def stopped : CNFAgent L × Paused (CNFAgent L) PyException AgentCall (AgentCall.Reply L) Unit →
    ElectionNode L
  | (agent, .done _) => { node with agent }
  | (agent, .waiting call next) => { node with
      agent
      stops := ⟨call, next, none⟩ :: node.stops }

/-- The heartbeat is cancelled where it waits. -/
def stop : ElectionNode L :=
  { node with heartbeat := none }.stopped (settle node.agent RaftElection.stop)

def finish (i : ℕ) (fault : Option Fault) : Option (ElectionNode L) :=
  match node.stops[i]? with
  | some ⟨.revokeLease, next, _⟩ =>
    some ({ node with
      revoked := (node.revocation fault).1
      stops := node.stops.eraseIdx i }.stopped
        (settle node.agent (next (node.revocation fault).2)))
  | _ => none

def step (node : ElectionNode L) : NodeAct L → Option (ElectionNode L)
  | .beat => node.beat
  | .answer answers => node.answer answers
  | .forceElect target => some (node.forceElect target)
  | .revoke i fault => node.revoke i fault
  | .conclude i => node.conclude i
  | .stop => some node.stop
  | .finish i fault => node.finish i fault

def start (clusterId grpcAddr : String) (scheduler : Option Scheduler) : ElectionNode L where
  agent := { election := { clusterId, grpcAddr, running := true, loopTask := true }, scheduler }

end ElectionNode

end NovaFederation
