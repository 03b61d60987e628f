import NovaFederation.MigrationModel
import NovaFederation.EventLoop

/-!
# Leader election and the agent process

`RaftElection` competes for the master key in etcd. `CNFAgent` starts it and answers its two
callbacks, which write the role of the cluster to the database and then switch the scheduler.
All three live on one event loop, so their attributes form one state, and each method is the
coroutine of the source method of the same name. The type `L` of leases is etcd's.

Left out are log lines, counters and `last_heartbeat`, which no modelled method reads.
-/

namespace NovaFederation
open Coroutine

inductive NodeRole
  | master
  | worker
  deriving DecidableEq

structure ElectionState where
  role : NodeRole := .worker
  masterId : String := ""
  term : ℕ := 0

/-- `loopTask` says whether `_election_loop` has been made a task. -/
structure RaftElection (L : Type) where
  clusterId : String
  grpcAddr : String
  state : ElectionState := {}
  lease : Option L := none
  running : Bool := false
  loopTask : Bool := false

/-- `run` evaluates the policies only while `isMaster` is set. -/
structure Scheduler where
  isMaster : Bool := false

def Scheduler.setMaster (s : Scheduler) (isMaster : Bool) : Scheduler := { s with isMaster }

structure CNFAgent (L : Type) where
  election : RaftElection L
  scheduler : Option Scheduler := none
  running : Bool := false

/-- The awaits of the agent. `acquire` is the job `_acquire`, which grants a lease and puts the
key under it if there is none: nobody else knows of the lease before the job is over. The jobs
on a lease read `self._lease` when they are executed. -/
inductive AgentCall
  | initDb
  | upsertSelfCluster
  | registerPeer (clusterId grpcAddr : String)
  | startGrpc
  | acquire (clusterId : String)
  | readMaster
  | refreshLease
  | revokeLease
  | writeRole (role : NodeRole)

/-- `refreshLease` answers with the remaining time to live. -/
@[reducible] def AgentCall.Reply (L : Type) : AgentCall → Type
  | .initDb => Unit
  | .upsertSelfCluster => Unit
  | .registerPeer .. => Unit
  | .startGrpc => Unit
  | .acquire _ => Bool × L
  | .readMaster => String
  | .refreshLease => ℕ
  | .revokeLease => Unit
  | .writeRole _ => Unit

abbrev Agent (L : Type) := Coroutine (CNFAgent L) PyException AgentCall (AgentCall.Reply L)

def unavailable : PyException := ⟨.other, "unavailable"⟩

variable {L : Type}

abbrev ask (c : AgentCall) : Agent L (c.Reply L) := perform c

/-! ### Callbacks -/

namespace CNFAgent

/-- `if self._scheduler: self._scheduler.set_master(...)`. -/
def switch (s : CNFAgent L) (role : NodeRole) : CNFAgent L :=
  { s with scheduler := s.scheduler.map (·.setMaster (role = .master)) }

def onBecomeMaster : Agent L Unit := do
  ask (.writeRole .master)
  modify (·.switch .master)

def onLoseMaster : Agent L Unit := do
  ask (.writeRole .worker)
  modify (·.switch .worker)

end CNFAgent

/-! ### The election -/

namespace RaftElection

def become (e : RaftElection L) : RaftElection L :=
  { e with state := ⟨.master, e.clusterId, e.state.term + 1⟩ }

def lose (e : RaftElection L) : RaftElection L :=
  { e with state := { e.state with role := .worker }, lease := none }

def observe (e : RaftElection L) (masterId : String) : RaftElection L :=
  if masterId ≠ "" ∧ e.state.masterId ≠ masterId then
    { e with state := { e.state with masterId } }
  else e

def onBecomeMaster : Agent L Unit := do
  let s ← read
  modify fun s => { s with election := s.election.become }
  if s.election.state.role ≠ .master then
    CNFAgent.onBecomeMaster
  else pure ()

def onLoseMaster : Agent L Unit := do
  modify fun s => { s with election := s.election.lose }
  CNFAgent.onLoseMaster

def tryAcquireMaster : Agent L Unit := do
  let s ← read
  if s.election.state.role = .master ∧ s.election.lease.isSome then
    try
      -- the time to live in the reply is not looked at
      let _ ← ask .refreshLease
    catch _ => onLoseMaster
  else
    try
      let (success, lease) ← ask (.acquire s.election.clusterId)
      if success then
        modify fun s => { s with election := { s.election with lease := some lease } }
        onBecomeMaster
      else
        let masterId ← ask .readMaster
        modify fun s => { s with election := s.election.observe masterId }
    catch _ => pure ()

/-- One round of `_election_loop`, less the sleep between two rounds. -/
def electionRound : Agent L Unit :=
  tryCatch tryAcquireMaster fun _ => pure ()

def revokeLease : Agent L Unit := do
  let s ← read
  if s.election.lease.isSome then
    try
      ask .revokeLease
    catch _ => pure ()
  else pure ()

/-- The target is only logged. -/
def forceElect (_targetClusterId : String) : Agent L Bool := do
  let s ← read
  if s.election.state.masterId ≠ s.election.clusterId then
    pure false
  else
    revokeLease
    pure true

/-- `stop` less the cancellation of the loop task, which is the event loop's. -/
def stop : Agent L Unit := do
  modify fun s => { s with election := { s.election with running := false } }
  revokeLease

def start : Agent L Unit := do
  modify fun s => { s with election := { s.election with running := true } }
  let s ← read
  ask (.registerPeer s.election.clusterId s.election.grpcAddr)
  modify fun s => { s with election := { s.election with loopTask := true } }

end RaftElection

/-- `start` of the agent. `_start_api` awaits nothing, and neither does what follows it. -/
def CNFAgent.start (clusterId grpcAddr : String) : Agent L Unit := do
  ask .initDb
  ask .upsertSelfCluster
  modify fun s => { s with election := { clusterId, grpcAddr } }
  RaftElection.start
  ask .startGrpc
  modify fun s => { s with scheduler := some {}, running := true }

end NovaFederation
