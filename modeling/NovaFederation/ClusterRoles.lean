import Mathlib.Data.Fintype.Defs
import NovaFederation.Electorate

/-!
# The role column of `clusters`

All agents share the table, and each writes only its own row: `_on_become_master` sets the role
to `MASTER`, `_on_lose_master` sets it back. A node that stops or crashes calls neither, and a
lease that expires is noticed by nobody, so the row of an old master may outlive its mastership.
`Federation` is the electorate with the table; every write to the table succeeds.
-/

namespace NovaFederation
open Coroutine Schedule
variable {N : Type}

/-- `leader` records the node whose `_on_become_master` was the last to complete, unless it has
begun to lose the role since. -/
structure Federation (N : Type) where
  electorate : Electorate N
  clusters : N → NodeRole
  leader : Option N := none

inductive FederationAct (N : Type)
  | elect (a : ElectionAct N)
  | crash (n : N)
  deriving DecidableEq

namespace Node
variable (node : Node N)

def writing : Option NodeRole :=
  match node.heartbeat with
  | some ⟨.writeRole role, _, none⟩ => some role
  | _ => none

def written : Option NodeRole :=
  match node.heartbeat with
  | some ⟨.writeRole role, _, some (.ok _)⟩ => some role
  | _ => none

def changing : Bool :=
  match node.heartbeat with
  | some ⟨.writeRole _, _, _⟩ => true
  | _ => false

/-- The process dies and is started again. A request that it has sent may still be executed. -/
def restart : Node N where
  agent := { election := {
    clusterId := node.agent.election.clusterId
    grpcAddr := node.agent.election.grpcAddr
    running := true
    loopTask := true } }
  orphans := node.orphans + node.abandoned

theorem changing_of_writing {role : NodeRole} (h : node.writing = some role) :
    node.changing = true := by
  unfold writing at h
  unfold changing
  split at h
  · next hjob => rw [hjob]
  · cases h

end Node

variable [DecidableEq N]

namespace Federation
variable (s : Federation N)

abbrev node (n : N) : Node N := s.electorate.nodes n

def commit : ElectionAct N → N → NodeRole
  | .serve n _ _ =>
    match (s.node n).writing with
    | some role => Function.update s.clusters n role
    | none => s.clusters
  | _ => s.clusters

/-- The record after a step: a callback of `n` goes on, and `node` is what `n` is then. -/
def note (a : ElectionAct N) (e : Electorate N) : Option N :=
  match a with
  | .deliver n =>
    if (e.nodes n).writing = some .worker then s.leader.filter (· ≠ n)
    else if (s.node n).written = some .master then some n
    else s.leader
  | _ => s.leader

def refuses : ElectionAct N → Bool
  | .serve n (some _) _ => (s.node n).writing.isSome
  | _ => false

def step : FederationAct N → Option (Federation N)
  | .elect a =>
    if s.refuses a then none
    else match s.electorate.step a with
      | some e => some { electorate := e, clusters := s.commit a, leader := s.note a e }
      | none => none
  | .crash n => some { s with electorate := s.electorate.put n (s.node n).restart }

def start (clusterId grpcAddr : N → String) : Federation N where
  electorate := Electorate.start clusterId grpcAddr
  clusters _ := .worker

/-! ### The rows of the masters -/

/-- Once a node has become master and no role change is in progress, its row alone says so. -/
def OneMaster : Prop :=
  ∀ n ∈ s.leader, (∀ m, (s.node m).changing = false) →
    s.clusters n = .master ∧ ∀ m, s.clusters m = .master → m = n

/-- A write of `MASTER` finds the row of every other master about to be set back, and a node
that is about to set its row back is not stopped or lost while another row says `MASTER`. -/
def Relieved (a : FederationAct N) (_ : Federation N) : Prop :=
  match a with
  | .elect (.serve n _ _) => (s.node n).writing = some .master →
      ∀ m, m ≠ n → s.clusters m = .master → (s.node m).writing = some .worker
  | .elect (.stop n) => (s.node n).writing = some .worker →
      ∀ m, s.clusters m = .master → m = n
  | .crash n => (s.node n).writing = some .worker → ∀ m, s.clusters m = .master → m = n
  | _ => True

end Federation

/-! ### Heartbeats -/

def ElectionAct.quiet : ElectionAct N → Bool
  | .beat _ => false
  | .serve .. => false
  | .deliver _ => false
  | .stop _ => false
  | _ => true

/-- How a step moves the heartbeat of the one agent that it is about. -/
inductive Moved (n : N) : ElectionAct N → Node N → Node N → Prop
  | served (fault : Option Fault) (remaining : ℕ) (etcd : Etcd N) (call : AgentCall)
    (next : Except PyException (call.Reply (Lease N)) → Agent (Lease N) Unit) (node node' : Node N)
    (before : node.heartbeat = some ⟨call, next, none⟩)
    (after : node'.heartbeat =
      some ⟨call, next, some (faulty fault n node.agent remaining etcd call).2⟩) :
    Moved n (.serve n fault remaining) node node'
  | resumed (node node' : Node N) (before : node.writing = none) (after : node'.written = none) :
    Moved n (.deliver n) node node'
  | begun (node node' : Node N) (before : node.writing = none) (quiet : node'.writing = none)
    (after : node'.written = none) : Moved n (.beat n) node node'
  | stopped (node node' : Node N) (after : node'.heartbeat = none) : Moved n (.stop n) node node'

namespace Node
omit [DecidableEq N]
variable {node : Node N} {call : AgentCall}
  {next : Except PyException (call.Reply (Lease N)) → Agent (Lease N) Unit}

theorem written_of_waiting (h : node.heartbeat = some ⟨call, next, none⟩) :
    node.written = none := by
  unfold written
  rw [h]
  cases call <;> rfl

theorem writing_of_replied {r : Except PyException (call.Reply (Lease N))}
    (h : node.heartbeat = some ⟨call, next, some r⟩) : node.writing = none := by
  unfold writing
  rw [h]
  cases call <;> rfl

theorem written_proceed (node : Node N) (q : CNFAgent (Lease N) × Paused
    (CNFAgent (Lease N)) PyException AgentCall (AgentCall.Reply (Lease N)) Unit) :
    (node.proceed q).written = none := by
  obtain ⟨agent, r | ⟨call, next⟩⟩ := q
  · rfl
  · exact written_of_waiting rfl

theorem writing_begin (node : Node N) :
    (node.proceed (settle node.agent RaftElection.electionRound)).writing = none := by
  by_cases hs : node.agent.election.state.role = .master ∧ node.agent.election.lease.isSome = true
  · obtain ⟨next, -, hq⟩ := settle_master hs
    rw [hq]
    rfl
  · obtain ⟨next, -, hq⟩ := settle_worker hs
    rw [hq]
    rfl

theorem heartbeat_submit (node : Node N) (q : CNFAgent (Lease N) × Paused
    (CNFAgent (Lease N)) PyException AgentCall (AgentCall.Reply (Lease N)) Unit) :
    (node.submit q).heartbeat = node.heartbeat := by
  obtain ⟨agent, r | ⟨call, next⟩⟩ := q
  · rfl
  · rfl

end Node

namespace Electorate
variable {E E' : Electorate N} {a : ElectionAct N} {node : Node N} {n : N}

theorem nodes_put_self (E : Electorate N) (n : N) (node : Node N) :
    (E.put n node).nodes n = node := by
  simp [put]

theorem nodes_put_other (E : Electorate N) {n m : N} (hm : m ≠ n) (node : Node N) :
    (E.put n node).nodes m = E.nodes m := by
  simp [put, hm]

theorem heartbeat_cases (h : E.step a = some E') :
    a.quiet = true ∧ (∀ m, (E'.nodes m).heartbeat = (E.nodes m).heartbeat) ∨
      ∃ n, (∀ m, m ≠ n → E'.nodes m = E.nodes m) ∧ Moved n a (E.nodes n) (E'.nodes n) := by
  have hput : ∀ (k : Etcd N) n node, node.heartbeat = (E.nodes n).heartbeat →
      ∀ m, (({ E with etcd := k }.put n node).nodes m).heartbeat = (E.nodes m).heartbeat := by
    intro k n node hsame m
    by_cases hm : m = n
    · subst hm
      rw [nodes_put_self]
      exact hsame
    · rw [nodes_put_other _ hm]
  cases a with
  | beat n =>
    obtain ⟨node, hb, rfl⟩ := Option.map_eq_some_iff.1 h
    refine .inr ⟨n, fun m hm => nodes_put_other E hm node, ?_⟩
    rw [nodes_put_self]
    unfold Node.beat at hb
    split_ifs at hb with hready
    obtain rfl := Option.some.inj hb
    have hnone := Option.isNone_iff_eq_none.1 hready.2
    exact .begun _ _ (by simp [Node.writing, hnone]) (Node.writing_begin _)
      (Node.written_proceed _ _)
  | serve n fault remaining =>
    simp only [step, serve] at h
    split at h
    · next call next hjob =>
      obtain rfl := Option.some.inj h
      refine .inr ⟨n, fun m hm => nodes_put_other _ hm _, ?_⟩
      rw [nodes_put_self]
      exact .served fault remaining E.etcd call next _ _ hjob rfl
    · cases h
  | deliver n =>
    obtain ⟨node, hd, rfl⟩ := Option.map_eq_some_iff.1 h
    refine .inr ⟨n, fun m hm => nodes_put_other E hm node, ?_⟩
    rw [nodes_put_self]
    unfold Node.deliver at hd
    split at hd
    · next hjob =>
      obtain rfl := Option.some.inj hd
      exact .resumed _ _ (Node.writing_of_replied hjob) (Node.written_proceed _ _)
    · cases hd
  | forceElect n target =>
    obtain rfl := Option.some.inj h
    exact .inl ⟨rfl, hput E.etcd n _ (Node.heartbeat_submit _ _)⟩
  | stop n =>
    obtain rfl := Option.some.inj h
    refine .inr ⟨n, fun m hm => nodes_put_other E hm _, ?_⟩
    rw [nodes_put_self]
    exact .stopped _ _ (Node.heartbeat_submit _ _)
  | finish n i fault =>
    simp only [step, finish] at h
    split at h
    · obtain rfl := Option.some.inj h
      exact .inl ⟨rfl, hput _ n _ (Node.heartbeat_submit _ _)⟩
    · cases h
  | orphan n =>
    simp only [step, orphan] at h
    split_ifs at h
    obtain rfl := Option.some.inj h
    exact .inl ⟨rfl, hput _ n _ rfl⟩
  | expire lease =>
    obtain rfl := Option.some.inj h
    exact .inl ⟨rfl, fun _ => rfl⟩

end Electorate

/-! ### One step -/

namespace Node
omit [DecidableEq N]
variable {node node' : Node N}

theorem writing_congr (h : node'.heartbeat = node.heartbeat) : node'.writing = node.writing := by
  rw [writing, writing, h]

theorem written_congr (h : node'.heartbeat = node.heartbeat) : node'.written = node.written := by
  rw [written, written, h]

end Node

namespace Federation
variable {s s' : Federation N} {a : FederationAct N}

/-- Of two rows that say `MASTER` one is about to be set back, a callback goes on from what it
has written, and the row of the node that became master last says so. -/
structure Tidy (s : Federation N) : Prop where
  relieved : ∀ n m, n ≠ m → s.clusters n = .master → s.clusters m = .master →
    (s.node n).writing = some .worker ∨ (s.node m).writing = some .worker
  written : ∀ n role, (s.node n).written = some role → s.clusters n = role
  leader : ∀ n ∈ s.leader, s.clusters n = .master ∧ (s.node n).writing ≠ some .worker

omit [DecidableEq N] in
theorem Tidy.oneMaster (ht : s.Tidy) : s.OneMaster := by
  intro n hn hquiet
  have hidle : ∀ m, (s.node m).writing ≠ some .worker := by
    intro m hw
    have hch := Node.changing_of_writing _ hw
    rw [hquiet m] at hch
    cases hch
  refine ⟨(ht.leader n hn).1, fun m hm => ?_⟩
  by_contra hne
  rcases ht.relieved m n hne hm (ht.leader n hn).1 with hw | hw
  · exact hidle m hw
  · exact hidle n hw

/-- A heartbeat goes on, begins or is gone, and the table is left alone. Where a `WORKER` write is
given up with it, no other row says `MASTER`. -/
theorem Tidy.move (ht : s.Tidy) {n : N} (hidle : (s.node n).writing = some .worker →
      ∀ m, s.clusters m = .master → m = n)
    (hafter : (s'.node n).written = none) (hother : ∀ m, m ≠ n → s'.node m = s.node m)
    (hclusters : s'.clusters = s.clusters)
    (hleader : ∀ k ∈ s'.leader, s.clusters k = .master ∧
      (k = n → (s'.node n).writing ≠ some .worker) ∧ (k ≠ n → k ∈ s.leader)) : s'.Tidy := by
  have hwriting : ∀ m, m ≠ n → (s'.node m).writing = (s.node m).writing :=
    fun m hm => congrArg Node.writing (hother m hm)
  refine ⟨?_, ?_, ?_⟩
  · rw [hclusters]
    intro i j hij hi hj
    have hkept : ∀ k, (s.node k).writing = some .worker → (s'.node k).writing = some .worker := by
      intro k hk
      by_cases hkn : k = n
      · subst hkn
        exact absurd ((hidle hk i hi).trans (hidle hk j hj).symm) hij
      · rw [hwriting k hkn]
        exact hk
    exact (ht.relieved i j hij hi hj).imp (hkept i) (hkept j)
  · rw [hclusters]
    intro m role hm
    by_cases hmn : m = n
    · rw [hmn, hafter] at hm
      cases hm
    · rw [hother m hmn] at hm
      exact ht.written m role hm
  · rw [hclusters]
    intro k hk
    obtain ⟨hmaster, hself, hold⟩ := hleader k hk
    refine ⟨hmaster, ?_⟩
    by_cases hkn : k = n
    · rw [hkn]
      exact hself hkn
    · rw [hwriting k hkn]
      exact (ht.leader k (hold hkn)).2

theorem Tidy.idle (ht : s.Tidy) {n : N} (hidle : (s.node n).writing = some .worker →
      ∀ m, s.clusters m = .master → m = n)
    (hself : (s'.node n).writing ≠ some .worker ∧ (s'.node n).written = none)
    (hother : ∀ m, m ≠ n → s'.node m = s.node m) (hclusters : s'.clusters = s.clusters)
    (hleader : s'.leader = s.leader) : s'.Tidy := by
  refine ht.move hidle hself.2 hother hclusters fun k hk => ?_
  rw [hleader] at hk
  exact ⟨(ht.leader k hk).1, fun _ => hself.1, fun _ => hk⟩

theorem Tidy.commit (ht : s.Tidy) {n : N} {role : NodeRole}
    (hbefore : (s.node n).writing = some role)
    (hq : role = .master → ∀ m, m ≠ n → s.clusters m = .master →
      (s.node m).writing = some .worker)
    (hself : (s'.node n).writing = none ∧ (s'.node n).written = some role)
    (hother : ∀ m, m ≠ n → s'.node m = s.node m)
    (hclusters : s'.clusters = Function.update s.clusters n role)
    (hleader : s'.leader = s.leader) : s'.Tidy := by
  have hwriting : ∀ m, m ≠ n → (s'.node m).writing = (s.node m).writing :=
    fun m hm => congrArg Node.writing (hother m hm)
  have hrow : s'.clusters n = role := by rw [hclusters, Function.update_self]
  have hrows : ∀ m, m ≠ n → s'.clusters m = s.clusters m := by
    intro m hm
    rw [hclusters, Function.update_of_ne hm]
  have hrival : ∀ m, m ≠ n → s'.clusters n = .master → s'.clusters m = .master →
      (s'.node m).writing = some .worker := by
    intro m hm hn hmaster
    rw [hwriting m hm]
    exact hq (hrow.symm.trans hn) m hm ((hrows m hm).symm.trans hmaster)
  refine ⟨?_, ?_, ?_⟩
  · intro i j hij hi hj
    by_cases hin : i = n
    · subst hin
      exact .inr (hrival j (Ne.symm hij) hi hj)
    · by_cases hjn : j = n
      · subst hjn
        exact .inl (hrival i hij hj hi)
      · rw [hrows i hin] at hi
        rw [hrows j hjn] at hj
        rw [hwriting i hin, hwriting j hjn]
        exact ht.relieved i j hij hi hj
  · intro m role' hm
    by_cases hmn : m = n
    · subst hmn
      rw [hself.2] at hm
      rw [hrow]
      exact Option.some.inj hm
    · rw [hother m hmn] at hm
      rw [hrows m hmn]
      exact ht.written m role' hm
  · rw [hleader]
    intro k hk
    obtain ⟨hmaster, hno⟩ := ht.leader k hk
    by_cases hkn : k = n
    · subst hkn
      rw [hrow, hself.1]
      refine ⟨?_, nofun⟩
      cases role with
      | master => rfl
      | worker => exact absurd hbefore hno
    · rw [hrows k hkn, hwriting k hkn]
      exact ⟨hmaster, hno⟩

theorem step_elect {b : ElectionAct N} (h : s.step (.elect b) = some s') :
    s.refuses b = false ∧ s.electorate.step b = some s'.electorate ∧
      s'.clusters = s.commit b ∧ s'.leader = s.note b s'.electorate := by
  simp only [step] at h
  split_ifs at h with hrefuses
  split at h
  · next e he =>
    obtain rfl := Option.some.inj h
    exact ⟨by simpa using hrefuses, he, rfl, rfl⟩
  · cases h

theorem commit_of_quiet {b : ElectionAct N} (h : b.quiet = true) :
    s.commit b = s.clusters ∧ ∀ e, s.note b e = s.leader := by
  cases b with
  | serve n fault remaining => cases h
  | deliver n => cases h
  | _ => exact ⟨rfl, fun _ => rfl⟩

omit [DecidableEq N] in
theorem Tidy.still (ht : s.Tidy)
    (hsame : ∀ m, (s'.node m).heartbeat = (s.node m).heartbeat)
    (hclusters : s'.clusters = s.clusters) (hleader : s'.leader = s.leader) : s'.Tidy := by
  have hwriting : ∀ m, (s'.node m).writing = (s.node m).writing :=
    fun m => Node.writing_congr (hsame m)
  have hwritten : ∀ m, (s'.node m).written = (s.node m).written :=
    fun m => Node.written_congr (hsame m)
  refine ⟨?_, ?_, ?_⟩
  · simp only [hclusters, hwriting]
    exact ht.relieved
  · simp only [hclusters, hwritten]
    exact ht.written
  · simp only [hclusters, hleader, hwriting]
    exact ht.leader

theorem Tidy.serve (ht : s.Tidy) {n : N} {fault : Option Fault} {remaining : ℕ}
    {call : AgentCall} {next : Continuation (Lease N) call Unit} {etcd : Etcd N}
    (hrefuses : s.refuses (.serve n fault remaining) = false)
    (hq : (s.node n).writing = some .master → ∀ m, m ≠ n → s.clusters m = .master →
      (s.node m).writing = some .worker)
    (hbefore : (s.node n).heartbeat = some ⟨call, next, none⟩)
    (hafter : (s'.node n).heartbeat =
      some ⟨call, next, some (faulty fault n (s.node n).agent remaining etcd call).2⟩)
    (hother : ∀ m, m ≠ n → s'.node m = s.node m)
    (hclusters : s'.clusters = s.commit (.serve n fault remaining))
    (hleader : s'.leader = s.leader) : s'.Tidy := by
  have hsilent : (s'.node n).writing = none := Node.writing_of_replied hafter
  cases hw : (s.node n).writing with
  | none =>
    have hwritten : (s'.node n).written = none := by
      unfold Node.writing at hw
      unfold Node.written
      rw [hbefore] at hw
      rw [hafter]
      cases call with
      | writeRole role => cases hw
      | _ => rfl
    refine ht.idle (hw ▸ nofun) ⟨hsilent ▸ nofun, hwritten⟩ hother (hclusters.trans ?_) hleader
    simp only [Federation.commit, hw]
  | some role =>
    -- the write is not lost, since the run has no write that fails
    obtain rfl : fault = none := by
      cases fault with
      | none => rfl
      | some f => simp [refuses, hw] at hrefuses
    have hwritten : (s'.node n).written = some role := by
      unfold Node.writing at hw
      unfold Node.written
      rw [hbefore] at hw
      rw [hafter]
      cases call with
      | writeRole role' => exact hw
      | _ => cases hw
    refine ht.commit hw (fun hr => hq (hr ▸ hw)) ⟨hsilent, hwritten⟩ hother ?_ hleader
    rw [hclusters]
    simp only [Federation.commit, hw]

theorem Tidy.deliver (ht : s.Tidy) {n : N} (hbefore : (s.node n).writing = none)
    (hafter : (s'.node n).written = none) (hother : ∀ m, m ≠ n → s'.node m = s.node m)
    (hclusters : s'.clusters = s.clusters)
    (hleader : s'.leader = s.note (.deliver n) s'.electorate) : s'.Tidy := by
  refine ht.move (hbefore ▸ nofun) hafter hother hclusters fun k hk => ?_
  rw [hleader] at hk
  simp only [Federation.note] at hk
  by_cases hlosing : (s'.node n).writing = some .worker
  · rw [if_pos hlosing] at hk
    obtain ⟨hk, hkn⟩ := Option.mem_filter_iff.1 hk
    exact ⟨(ht.leader k hk).1, fun h => absurd h (by simpa using hkn), fun _ => hk⟩
  · rw [if_neg hlosing] at hk
    by_cases hwon : (s.node n).written = some .master
    · rw [if_pos hwon] at hk
      obtain rfl := Option.some.inj hk
      exact ⟨ht.written n .master hwon, fun _ => hlosing, fun h => absurd rfl h⟩
    · rw [if_neg hwon] at hk
      exact ⟨(ht.leader k hk).1, fun _ => hlosing, fun _ => hk⟩

theorem Tidy.step (ht : s.Tidy) (h : s.step a = some s') (hq : s.Relieved a s') : s'.Tidy := by
  cases a with
  | crash n =>
    obtain rfl := Option.some.inj h
    refine ht.idle hq ?_ (fun m hm => Electorate.nodes_put_other _ hm _) rfl rfl
    rw [node, Electorate.nodes_put_self]
    exact ⟨nofun, rfl⟩
  | elect b =>
    obtain ⟨hrefuses, hstep, hclusters, hleader⟩ := step_elect h
    rcases Electorate.heartbeat_cases hstep with ⟨hquiet, hsame⟩ | ⟨n, hother, hmoved⟩
    · obtain ⟨hcommit, hnote⟩ := commit_of_quiet (s := s) hquiet
      exact ht.still hsame (hclusters.trans hcommit) (hleader.trans (hnote _))
    · cases hmoved with
      | served fault remaining etcd call next _ _ hbefore hafter =>
        exact ht.serve hrefuses hq hbefore hafter hother hclusters hleader
      | resumed _ _ hbefore hafter => exact ht.deliver hbefore hafter hother hclusters hleader
      | begun _ _ hbefore hquiet hafter =>
        exact ht.idle (hbefore ▸ nofun) ⟨hquiet ▸ nofun, hafter⟩ hother hclusters hleader
      | stopped _ _ hafter =>
        exact ht.idle hq (by simp [Node.writing, Node.written, hafter]) hother hclusters hleader

omit [DecidableEq N] in
theorem tidy_start (clusterId grpcAddr : N → String) : (start clusterId grpcAddr).Tidy where
  relieved := nofun
  written := nofun
  leader := nofun

/-- In a run of relieved steps the row of the node that became master last is the only one that
says `MASTER`. -/
theorem one_master {clusterId grpcAddr : N → String} {acts : List (FederationAct N)}
    (h : Along Federation.step Relieved (start clusterId grpcAddr) acts) :
    Along Federation.step (fun _ _ s' => s'.OneMaster) (start clusterId grpcAddr) acts :=
  h.imp Tidy (fun _ _ _ hs ht hq => ⟨(ht.step hs hq).oneMaster, ht.step hs hq⟩)
    (tidy_start clusterId grpcAddr)

omit [DecidableEq N] in
theorem oneMaster_iff [Fintype N] : s.OneMaster ↔ ∀ n, s.leader = some n →
    (∀ m, (s.node m).changing = false) →
      s.clusters n = .master ∧ ∀ m, s.clusters m = .master → m = n := by
  simp only [OneMaster, Option.mem_def]

instance [Fintype N] (s : Federation N) : Decidable s.OneMaster :=
  decidable_of_iff _ oneMaster_iff.symm

instance [Fintype N] (s : Federation N) :
    (a : FederationAct N) → (s' : Federation N) → Decidable (s.Relieved a s')
  | .elect (.serve n _ _), _ => inferInstanceAs (Decidable ((s.node n).writing = some .master →
      ∀ m, m ≠ n → s.clusters m = .master → (s.node m).writing = some .worker))
  | .elect (.stop n), _ => inferInstanceAs (Decidable ((s.node n).writing = some .worker →
      ∀ m, s.clusters m = .master → m = n))
  | .crash n, _ => inferInstanceAs (Decidable ((s.node n).writing = some .worker →
      ∀ m, s.clusters m = .master → m = n))
  | .elect (.beat _), _ => isTrue trivial
  | .elect (.deliver _), _ => isTrue trivial
  | .elect (.forceElect ..), _ => isTrue trivial
  | .elect (.finish ..), _ => isTrue trivial
  | .elect (.orphan _), _ => isTrue trivial
  | .elect (.expire _), _ => isTrue trivial

/-- A master whose refresh fails sets its row back before another node becomes master. -/
theorem one_master_refresh : Along Federation.step (fun _ _ s' => s'.OneMaster)
    (start (fun n => if n then "iad" else "fra") fun _ => "")
    ([.beat true, .serve true none 9, .deliver true, .serve true none 0, .deliver true,
      .beat true, .serve true (some .request) 9, .deliver true, .expire ⟨true, 0⟩,
      .serve true none 0, .deliver true, .beat false, .serve false none 9, .deliver false,
      .serve false none 0, .deliver false].map .elect) :=
  one_master (by decide +kernel)

/-- A master that is stopped leaves its row behind. -/
theorem not_one_master : ¬ Along Federation.step (fun _ _ s' => s'.OneMaster)
    (start (fun n => if n then "iad" else "fra") fun _ => "")
    ([.beat true, .serve true none 9, .deliver true, .serve true none 0, .deliver true,
      .stop true, .finish true 0 none, .beat false, .serve false none 9, .deliver false,
      .serve false none 0, .deliver false].map .elect) := by
  decide +kernel

end Federation

end NovaFederation
