import NovaFederation.Exclusivity

/-!
# A free key and who may take it

An agent asks for the key only as a worker. A master whose lease is gone is told so by the answer
to its refresh, does not look at it and stays master, so it asks for the key no more. As long as
no request is lost, a key that is free is taken only by an agent that has not been master, or that
has heard of a failure since.
-/

namespace NovaFederation
open Coroutine Schedule
variable {N : Type} {n : N} {node : Node N}

def ElectionAct.faultless : ElectionAct N → Bool
  | .serve _ fault _ => fault.isNone
  | .finish _ _ fault => fault.isNone
  | _ => true

theorem RaftElection.running_observe {L : Type} (e : RaftElection L) (masterId : String) :
    (e.observe masterId).running = e.running := by
  unfold RaftElection.observe
  split_ifs <;> rfl

namespace Node

/-- The role that the agent has once it has taken the answer that is there. -/
def outlook (node : Node N) : NodeRole :=
  match node.heartbeat with
  | some ⟨.acquire _, _, some (.ok (true, _))⟩ => .master
  | some ⟨.refreshLease, _, some (.error _)⟩ => .worker
  | _ => node.role

/-- A request for the key is on its way, or the agent goes on as a worker, which will send one. -/
def Contends (node : Node N) : Prop :=
  0 < node.orphans + node.abandoned ∨ node.election.running = true ∧ node.outlook = .worker

instance (node : Node N) : Decidable node.Contends := inferInstanceAs (Decidable (_ ∨ _))

theorem outlook_idle (h : node.heartbeat = none) : node.outlook = node.role := by
  unfold outlook
  rw [h]

theorem abandoned_idle (h : node.heartbeat = none) : node.abandoned = 0 := by
  unfold abandoned
  rw [h]

theorem Contends.congr {node' : Node N} (hc : node'.Contends)
    (hheartbeat : node'.heartbeat = node.heartbeat) (horphans : node'.orphans = node.orphans)
    (hrole : node'.role = node.role)
    (hrunning : node'.election.running = node.election.running) : node.Contends := by
  unfold Contends abandoned outlook at *
  rw [hheartbeat, horphans, hrole, hrunning] at hc
  exact hc

/-- The agent neither asks for the key nor will, unless it hears of a failure. -/
structure Aloof (node : Node N) : Prop where
  orphans : node.orphans = 0
  abandoned : node.abandoned = 0
  outlook : node.election.running = true → node.outlook = .master

theorem not_contends_iff : ¬ node.Contends ↔ node.Aloof := by
  unfold Contends
  constructor
  · intro hno
    refine ⟨by omega, by omega, fun hr => ?_⟩
    cases ho : node.outlook with
    | master => rfl
    | worker => exact absurd (.inr ⟨hr, ho⟩) hno
  · rintro ⟨ho, ha, hm⟩ (hlt | ⟨hr, hw⟩)
    · omega
    · rw [hm hr] at hw
      cases hw

variable {k : Etcd N} {node' : Node N}

theorem Aloof.beat (ha : node.Aloof) (hs : node.Sound k n) (hb : node.beat = some node') :
    node'.Aloof := by
  unfold Node.beat at hb
  split_ifs at hb with hready
  obtain rfl := Option.some.inj hb
  have hrole : node.role = .master := by
    rw [← outlook_idle (Option.isNone_iff_eq_none.1 hready.2)]
    exact ha.outlook hready.1
  obtain ⟨next, -, heq⟩ := settle_master ⟨hrole, hs.master.1 hrole⟩
  rw [heq]
  exact ⟨ha.orphans, rfl, fun _ => hrole⟩

theorem Aloof.deliver (ha : node.Aloof) (hs : node.Sound k n) (hd : node.deliver = some node') :
    node'.Aloof := by
  unfold Node.deliver at hd
  split at hd
  · next call next reply hjob =>
    obtain rfl := Option.some.inj hd
    have hp := hs.heartbeat _ hjob
    have hout := ha.outlook
    unfold Node.outlook at hout
    rw [hjob] at hout
    cases call with
    | refreshLease =>
      obtain ⟨hrole, hnext, -⟩ := hp
      rcases reply with x | ttl
      · obtain ⟨next', -, heq⟩ := hnext.error x node.agent
        rw [heq]
        exact ⟨ha.orphans, rfl, fun hr => nomatch hout hr⟩
      · obtain ⟨x, heq⟩ := hnext.ok ttl node.agent
        rw [heq]
        exact ⟨ha.orphans, rfl, fun _ => hrole⟩
    | acquire clusterId =>
      obtain ⟨hrole, -, hnext, -⟩ := hp
      rcases reply with x | ⟨_ | _, lease⟩
      · obtain ⟨x, heq⟩ := hnext.error x node.agent
        rw [heq]
        exact ⟨ha.orphans, rfl, hout⟩
      · obtain ⟨next', -, heq⟩ := hnext.lost lease node.agent
        rw [heq]
        exact ⟨ha.orphans, rfl, hout⟩
      · obtain ⟨next', -, heq⟩ := hnext.won lease node.agent hrole
        rw [heq]
        exact ⟨ha.orphans, rfl, fun _ => rfl⟩
    | readMaster =>
      obtain ⟨hrole, hnext⟩ := hp
      rcases reply with x | masterId
      · obtain ⟨x, heq⟩ := hnext.error x node.agent
        rw [heq]
        exact ⟨ha.orphans, rfl, hout⟩
      · obtain ⟨x, heq⟩ := hnext.ok masterId node.agent
        obtain ⟨hr, -⟩ := node.election.observe_grip masterId
        rw [heq]
        refine ⟨ha.orphans, rfl, fun hrun => ?_⟩
        rw [outlook_idle rfl]
        exact hr.trans (hout (node.election.running_observe masterId ▸ hrun))
    | writeRole role =>
      obtain ⟨-, hnext, -⟩ := hp
      rcases reply with x | _
      · obtain ⟨x, heq⟩ := hnext.error x node.agent
        rw [heq]
        exact ⟨ha.orphans, rfl, hout⟩
      · obtain ⟨x, heq⟩ := hnext.ok node.agent
        rw [heq]
        exact ⟨ha.orphans, rfl, hout⟩
    | initDb => exact hp.elim
    | upsertSelfCluster => exact hp.elim
    | registerPeer clusterId grpcAddr => exact hp.elim
    | startGrpc => exact hp.elim
    | revokeLease => exact hp.elim
  · cases hd

theorem submit_frame (node : Node N) (agent : CNFAgent (Lease N))
    (p : Paused (CNFAgent (Lease N)) PyException AgentCall (AgentCall.Reply (Lease N)) Unit) :
    (node.submit (agent, p)).agent = agent ∧
      (node.submit (agent, p)).heartbeat = node.heartbeat ∧
      (node.submit (agent, p)).orphans = node.orphans := by
  cases p with
  | done x => exact ⟨rfl, rfl, rfl⟩
  | waiting call next => exact ⟨rfl, rfl, rfl⟩

theorem aloof_submit {agent : CNFAgent (Lease N)} (ha : node.Aloof) (hagent : agent = node.agent)
    (p : Paused (CNFAgent (Lease N)) PyException AgentCall (AgentCall.Reply (Lease N)) Unit) :
    (node.submit (agent, p)).Aloof := by
  obtain ⟨hsame, hheartbeat, horphans⟩ := submit_frame node agent p
  refine not_contends_iff.1 fun hc => not_contends_iff.2 ha (hc.congr hheartbeat horphans ?_ ?_)
  · rw [Node.role, Node.election, hsame, hagent]
  · rw [Node.election, hsame, hagent]

theorem Aloof.forceElect (ha : node.Aloof) (target : String) : (node.forceElect target).Aloof := by
  obtain ⟨hagent, -⟩ := Revoking.map (settle_forceElect node.agent target) fun _ => ()
  exact aloof_submit ha hagent _

theorem Aloof.stop (ha : node.Aloof) : node.stop.Aloof := by
  obtain ⟨hagent, -⟩ := settle_stop node.agent
  unfold Node.stop
  rcases hq : settle node.agent RaftElection.stop with ⟨t, p⟩
  rw [hq] at hagent
  obtain rfl : t = _ := hagent
  obtain ⟨hsame, hheartbeat, horphans⟩ := submit_frame
    { node with heartbeat := none, orphans := node.orphans + node.abandoned }
    { node.agent with election := { node.agent.election with running := false } } p
  refine ⟨?_, abandoned_idle hheartbeat, fun hr => ?_⟩
  · rw [horphans, ha.orphans, ha.abandoned]
  · rw [Node.election, hsame] at hr
    cases hr

theorem Aloof.finish (ha : node.Aloof) (hs : node.Sound k n) {job : Job N} {i : ℕ}
    (hj : node.requests[i]? = some job) (reply : Except PyException (job.call.Reply (Lease N))) :
    ({ node with requests := node.requests.eraseIdx i }.submit
      (settle node.agent (job.next reply))).Aloof := by
  have hrev := hs.requests job (List.mem_of_getElem? hj)
  obtain ⟨call, next, r⟩ := job
  cases hrev with
  | waiting _ hnext =>
    obtain ⟨x, hx⟩ := hnext reply node.agent
    dsimp only
    rw [hx]
    exact ⟨ha.orphans, ha.abandoned, ha.outlook⟩

/-- Of an agent that keeps aloof only refreshes, reads and the writes of a callback are on their
way, and an answer tells it nothing that makes it contend. -/
theorem Aloof.served [DecidableEq N] (ha : node.Aloof) (hs : node.Sound k n) {call : AgentCall}
    {next : Continuation (Lease N) call Unit}
    (hjob : node.heartbeat = some ⟨call, next, none⟩) (remaining : ℕ)
    (seen : Option (Etcd N)) :
    (execute n node.agent remaining k call).1 = k ∧
      Node.Aloof { node with
        heartbeat := some ⟨call, next, some (execute n node.agent remaining k call).2⟩
        seen } := by
  have hp := hs.heartbeat _ hjob
  have hout := ha.outlook
  unfold Node.outlook at hout
  rw [hjob] at hout
  cases call with
  | refreshLease =>
    obtain ⟨lease, hlease⟩ := Option.isSome_iff_exists.1 (hs.master.1 hp.1)
    simp only [execute, hlease]
    exact ⟨trivial, ha.orphans, rfl, hout⟩
  | acquire clusterId =>
    have hno := ha.abandoned
    unfold Node.abandoned at hno
    rw [hjob] at hno
    cases hno
  | readMaster => exact ⟨rfl, ha.orphans, rfl, hout⟩
  | writeRole role => exact ⟨rfl, ha.orphans, rfl, hout⟩
  | initDb => exact hp.elim
  | upsertSelfCluster => exact hp.elim
  | registerPeer clusterId grpcAddr => exact hp.elim
  | startGrpc => exact hp.elim
  | revokeLease => exact hp.elim

end Node

/-! ### Nobody asks -/

theorem LeasedKey.drop_of_free {P V : Type} [DecidableEq P] {k : LeasedKey P V}
    (hk : k.entry = none) (l : Lease P) : (k.drop l).entry = none := by
  unfold LeasedKey.drop
  split
  · rfl
  · exact hk

variable [DecidableEq N]

namespace Electorate
variable {s s' : Electorate N} {a : ElectionAct N}

structure Headless (s : Electorate N) : Prop where
  sound : s.Sound
  free : s.etcd.entry = none
  aloof : ∀ n, (s.nodes n).Aloof

theorem Headless.put (hh : s.Headless) {k : Etcd N}
    (hsound : Sound ({ s with etcd := k }.put n node)) (hk : k.entry = none) (hn : node.Aloof) :
    Headless ({ s with etcd := k }.put n node) :=
  ⟨hsound, hk, forall_put (P := fun _ node => node.Aloof) hn hh.aloof⟩

theorem headless_step (ha : a.faultless = true) (h : s.step a = some s') (hh : s.Headless) :
    s'.Headless := by
  have hs := hh.sound
  have hsound := sound_step hs h
  cases a with
  | beat n =>
    obtain ⟨node, hb, rfl⟩ := Option.map_eq_some_iff.1 h
    exact hh.put hsound hh.free ((hh.aloof n).beat (hs n) hb)
  | serve n fault remaining =>
    obtain rfl : fault = none := Option.isNone_iff_eq_none.1 ha
    simp only [step, serve] at h
    split at h
    · next call next hjob =>
      obtain rfl := Option.some.inj h
      obtain ⟨hk, hn⟩ := (hh.aloof n).served (hs n) hjob remaining
        (if call.onEtcd then some (execute n (s.nodes n).agent remaining s.etcd call).1
          else (s.nodes n).seen)
      exact hh.put hsound ((congrArg LeasedKey.entry hk).trans hh.free) hn
    · cases h
  | deliver n =>
    obtain ⟨node, hd, rfl⟩ := Option.map_eq_some_iff.1 h
    exact hh.put hsound hh.free ((hh.aloof n).deliver (hs n) hd)
  | forceElect n target =>
    obtain rfl := Option.some.inj h
    exact hh.put hsound hh.free ((hh.aloof n).forceElect target)
  | stop n =>
    obtain rfl := Option.some.inj h
    exact hh.put hsound hh.free (hh.aloof n).stop
  | finish n i fault =>
    obtain rfl : fault = none := Option.isNone_iff_eq_none.1 ha
    simp only [step, finish] at h
    split at h
    · next job hjob =>
      obtain rfl := Option.some.inj h
      refine hh.put hsound ?_ ((hh.aloof n).finish (hs n) hjob _)
      have hrev := (hs n).requests job (List.mem_of_getElem? hjob)
      obtain ⟨call, next, r⟩ := job
      cases hrev with
      | waiting _ _ =>
        simp only [faulty, execute]
        split
        · exact LeasedKey.drop_of_free hh.free _
        · exact hh.free
    · cases h
  | orphan n =>
    simp only [step, orphan] at h
    split_ifs at h with ho
    exact absurd (hh.aloof n).orphans ho
  | expire lease =>
    obtain rfl := Option.some.inj h
    exact ⟨hsound, LeasedKey.drop_of_free hh.free lease, hh.aloof⟩

/-! ### Somebody asks -/

def Recovers (s : Electorate N) : Prop :=
  ∃ s', Leads step ElectionAct.faultless s s' ∧ s'.etcd.entry.isSome = true

theorem recovers_of_step (ha : a.faultless = true) (h : s.step a = some s') (hr : s'.Recovers) :
    s.Recovers := by
  obtain ⟨t, hl, hk⟩ := hr
  exact ⟨t, hl.head ha h, hk⟩

theorem recovers_of_put (ha : a.faultless = true) (h : s.step a = some s')
    (hk : s'.etcd.entry.isSome = true) : s.Recovers :=
  ⟨s', Leads.head ha h (.refl s'), hk⟩

omit [DecidableEq N] in
theorem isSome_acquire {k : Etcd N} (hk : k.entry = none) (n : N) (clusterId : String) :
    (k.acquire n clusterId).entry.isSome = true := by
  rw [(LeasedKey.acquire_of_free hk n clusterId).1]
  rfl

theorem recovers_of_acquire {clusterId : String}
    {next : Continuation (Lease N) (.acquire clusterId) Unit} (hfree : s.etcd.entry = none)
    (hjob : (s.nodes n).heartbeat = some ⟨.acquire clusterId, next, none⟩) : s.Recovers := by
  have hserve : s.step (.serve n none 0) = s.serve n none 0 := rfl
  simp only [serve, hjob] at hserve
  exact recovers_of_put rfl hserve (isSome_acquire hfree n clusterId)

structure Candidate (s : Electorate N) (n : N) : Prop where
  sound : s.Sound
  free : s.etcd.entry = none
  running : (s.nodes n).election.running = true
  outlook : (s.nodes n).outlook = .worker

theorem Candidate.put (hc : s.Candidate n) (h : s.step a = some (s.put n node))
    (hrunning : node.election.running = true) (houtlook : node.outlook = .worker) :
    Candidate (s.put n node) n := by
  refine ⟨sound_step hc.sound h, hc.free, ?_, ?_⟩
  · rw [nodes_put]
    exact hrunning
  · rw [nodes_put]
    exact houtlook

theorem Candidate.recovers_idle (hc : s.Candidate n) (hidle : (s.nodes n).heartbeat = none) :
    s.Recovers := by
  have hrole : (s.nodes n).role = .worker := by
    rw [← Node.outlook_idle hidle]
    exact hc.outlook
  obtain ⟨next, -, heq⟩ := settle_worker (s := (s.nodes n).agent)
    fun hm => by simp [hrole] at hm
  have hbeat : s.step (.beat n) = (s.nodes n).beat.map (s.put n) := rfl
  rw [Node.beat, if_pos ⟨hc.running, Option.isNone_iff_eq_none.2 hidle⟩, heq] at hbeat
  have hjob : ((s.put n ({ s.nodes n with seen := none }.proceed ((s.nodes n).agent,
      .waiting (.acquire (s.nodes n).agent.election.clusterId) next))).nodes n).heartbeat =
      some ⟨.acquire _, next, none⟩ := by
    rw [nodes_put]
    rfl
  exact recovers_of_step rfl hbeat (recovers_of_acquire hc.free hjob)

theorem step_deliver {call : AgentCall} {next : Continuation (Lease N) call Unit}
    {reply : Except PyException (call.Reply (Lease N))} {agent : CNFAgent (Lease N)}
    {p : Paused (CNFAgent (Lease N)) PyException AgentCall (AgentCall.Reply (Lease N)) Unit}
    (hjob : (s.nodes n).heartbeat = some ⟨call, next, some reply⟩)
    (heq : settle (s.nodes n).agent (next reply) = (agent, p)) :
    s.step (.deliver n) = some (s.put n ((s.nodes n).proceed (agent, p))) := by
  have hdeliver : s.step (.deliver n) = (s.nodes n).deliver.map (s.put n) := rfl
  simp only [Node.deliver, hjob, heq] at hdeliver
  exact hdeliver

theorem Candidate.recovers_of_done (hc : s.Candidate n) {call : AgentCall}
    {next : Continuation (Lease N) call Unit} {reply : Except PyException (call.Reply (Lease N))}
    {agent : CNFAgent (Lease N)} {x : Except PyException Unit}
    (hjob : (s.nodes n).heartbeat = some ⟨call, next, some reply⟩)
    (heq : settle (s.nodes n).agent (next reply) = (agent, .done x))
    (hrunning : agent.election.running = true) (hrole : agent.role = .worker) : s.Recovers := by
  have hstep := step_deliver hjob heq
  have hc' := hc.put hstep hrunning ((Node.outlook_idle rfl).trans hrole)
  refine recovers_of_step rfl hstep (hc'.recovers_idle ?_)
  rw [nodes_put]
  rfl

theorem step_serve {call : AgentCall} {next : Continuation (Lease N) call Unit}
    {v : call.Reply (Lease N)} (hjob : (s.nodes n).heartbeat = some ⟨call, next, none⟩)
    (hex : execute n (s.nodes n).agent 0 s.etcd call = (s.etcd, .ok v)) :
    s.step (.serve n none 0) = some (s.put n { s.nodes n with
      heartbeat := some ⟨call, next, some (.ok v)⟩
      seen := if call.onEtcd then some s.etcd else (s.nodes n).seen }) := by
  have hserve : s.step (.serve n none 0) = s.serve n none 0 := rfl
  simp only [serve, hjob, faulty, hex] at hserve
  exact hserve

theorem Candidate.recovers_reading (hc : s.Candidate n)
    {next : Continuation (Lease N) .readMaster Unit} (hnext : Observing next)
    (hjob : (s.nodes n).heartbeat = some ⟨.readMaster, next, none⟩) : s.Recovers := by
  have hout := hc.outlook
  unfold Node.outlook at hout
  rw [hjob] at hout
  obtain ⟨masterId, hex⟩ : ∃ masterId : String,
      execute n (s.nodes n).agent 0 s.etcd .readMaster = (s.etcd, .ok masterId) := ⟨_, rfl⟩
  have hstep := step_serve hjob hex
  refine recovers_of_step rfl hstep ?_
  have hc' := hc.put hstep hc.running hout
  obtain ⟨x, heq⟩ := hnext.ok masterId (s.nodes n).agent
  obtain ⟨hrole, -⟩ := (s.nodes n).election.observe_grip masterId
  refine hc'.recovers_of_done (by rw [nodes_put]) (by rw [nodes_put]; exact heq) ?_ ?_
  · exact (RaftElection.running_observe _ _).trans hc.running
  · exact hrole.trans hout

theorem Candidate.recovers_writing (hc : s.Candidate n)
    {next : Continuation (Lease N) (.writeRole .worker) Unit} (hnext : Switching .worker next)
    (hjob : (s.nodes n).heartbeat = some ⟨.writeRole .worker, next, none⟩) : s.Recovers := by
  have hout := hc.outlook
  unfold Node.outlook at hout
  rw [hjob] at hout
  have hstep := step_serve (v := ()) hjob rfl
  refine recovers_of_step rfl hstep ?_
  have hc' := hc.put hstep hc.running hout
  obtain ⟨x, heq⟩ := hnext.ok (s.nodes n).agent
  refine hc'.recovers_of_done (by rw [nodes_put]) (by rw [nodes_put]; exact heq) ?_ ?_
  · exact hc.running
  · exact hout

/-- Whatever its heartbeat waits for, an agent that goes on as a worker comes to ask for the
key. -/
theorem Candidate.recovers (hc : s.Candidate n) : s.Recovers := by
  have hout := hc.outlook
  unfold Node.outlook at hout
  cases hheartbeat : (s.nodes n).heartbeat with
  | none => exact hc.recovers_idle hheartbeat
  | some job =>
    have hp := (hc.sound n).heartbeat job hheartbeat
    rw [hheartbeat] at hout
    obtain ⟨call, next, reply⟩ := job
    cases call with
    | refreshLease =>
      obtain ⟨hrole, hnext, -⟩ := hp
      rcases reply with _ | x | ttl
      · exact absurd (hrole.symm.trans hout) (by simp)
      · obtain ⟨next', hsw, heq⟩ := hnext.error x (s.nodes n).agent
        have hstep := step_deliver hheartbeat heq
        have hc' := hc.put hstep hc.running rfl
        exact recovers_of_step rfl hstep
          (hc'.recovers_writing hsw (by rw [nodes_put]; rfl))
      · exact absurd (hrole.symm.trans hout) (by simp)
    | acquire clusterId =>
      obtain ⟨hrole, -, hnext, -⟩ := hp
      rcases reply with _ | x | ⟨_ | _, lease⟩
      · exact recovers_of_acquire hc.free hheartbeat
      · obtain ⟨x, heq⟩ := hnext.error x (s.nodes n).agent
        exact hc.recovers_of_done hheartbeat heq hc.running hrole
      · obtain ⟨next', hobs, heq⟩ := hnext.lost lease (s.nodes n).agent
        have hstep := step_deliver hheartbeat heq
        have hc' := hc.put hstep hc.running hrole
        exact recovers_of_step rfl hstep
          (hc'.recovers_reading hobs (by rw [nodes_put]; rfl))
      · cases hout
    | readMaster =>
      obtain ⟨hrole, hnext⟩ := hp
      rcases reply with _ | x | masterId
      · exact hc.recovers_reading hnext hheartbeat
      · obtain ⟨x, heq⟩ := hnext.error x (s.nodes n).agent
        exact hc.recovers_of_done hheartbeat heq hc.running hrole
      · obtain ⟨x, heq⟩ := hnext.ok masterId (s.nodes n).agent
        obtain ⟨hsame, -⟩ := (s.nodes n).election.observe_grip masterId
        exact hc.recovers_of_done hheartbeat heq
          ((RaftElection.running_observe _ _).trans hc.running) (hsame.trans hrole)
    | writeRole role =>
      obtain ⟨hrole, hnext, -⟩ := hp
      obtain rfl : role = .worker := hrole.symm.trans hout
      rcases reply with _ | x | _
      · exact hc.recovers_writing hnext hheartbeat
      · obtain ⟨x, heq⟩ := hnext.error x (s.nodes n).agent
        exact hc.recovers_of_done hheartbeat heq hc.running hrole
      · obtain ⟨x, heq⟩ := hnext.ok (s.nodes n).agent
        exact hc.recovers_of_done hheartbeat heq hc.running hrole
    | initDb => exact hp.elim
    | upsertSelfCluster => exact hp.elim
    | registerPeer clusterId grpcAddr => exact hp.elim
    | startGrpc => exact hp.elim
    | revokeLease => exact hp.elim

theorem recovers_of_contends (hs : s.Sound) (hfree : s.etcd.entry = none)
    (hc : (s.nodes n).Contends) : s.Recovers := by
  by_cases ho : (s.nodes n).orphans = 0
  · rcases hc with hlt | ⟨hrunning, hout⟩
    · have hjob : (s.nodes n).abandoned ≠ 0 := by omega
      unfold Node.abandoned at hjob
      split at hjob
      · next clusterId next hheartbeat => exact recovers_of_acquire hfree hheartbeat
      · exact absurd rfl hjob
    · exact Candidate.recovers ⟨hs, hfree, hrunning, hout⟩
  · have horphan : s.step (.orphan n) = s.orphan n := rfl
    rw [orphan, if_neg ho] at horphan
    exact recovers_of_put rfl horphan (isSome_acquire hfree n _)

end Electorate

open Electorate in
/-- A key that is free can be put without a fault exactly if some agent is a worker, or hears of
a failure, or has a request for the key on its way. -/
theorem recovers_iff (clusterId grpcAddr : N → String) (acts : List (ElectionAct N))
    (s : Electorate N) (hrun : arrive step (start clusterId grpcAddr) acts = some s)
    (hfree : s.etcd.entry = none) :
    (∃ s', Leads step ElectionAct.faultless s s' ∧ s'.etcd.entry.isSome = true) ↔
      ∃ n, (s.nodes n).Contends := by
  have hlead : Leads step (fun _ => true) (start clusterId grpcAddr) s :=
    ⟨acts, fun _ _ => rfl, hrun⟩
  have hs : s.Sound := hlead.keeps Electorate.Sound (fun _ _ _ _ hstep hs => sound_step hs hstep)
    (sound_start clusterId grpcAddr)
  constructor
  · rintro ⟨s', hl, hk⟩
    by_contra hno
    have hheadless : s.Headless :=
      ⟨hs, hfree, fun n => Node.not_contends_iff.1 fun hc => hno ⟨n, hc⟩⟩
    have hend := hl.keeps Headless (fun _ _ _ ha hstep hh => headless_step ha hstep hh) hheadless
    rw [hend.free] at hk
    cases hk
  · rintro ⟨n, hc⟩
    exact recovers_of_contends hs hfree hc

/-- The only agent was master until its lease expired. -/
def lapsed : Option (Electorate Unit) :=
  arrive Electorate.step (.start (fun _ => "iad") fun _ => "")
    [.beat (), .serve () none 9, .deliver (), .serve () none 0, .deliver (), .expire ⟨(), 0⟩]

theorem recovers_iff_lapsed : ¬ ∃ s', Leads Electorate.step ElectionAct.faultless
    (lapsed.get (by decide +kernel)) s' ∧ s'.etcd.entry.isSome = true := by
  have hrun : lapsed = some (lapsed.get (by decide +kernel)) := (Option.some_get _).symm
  have hno : ¬ ((lapsed.get (by decide +kernel)).nodes ()).Contends := by decide +kernel
  intro hl
  obtain ⟨_, hc⟩ := (recovers_iff _ _ _ _ hrun (by decide +kernel)).1 hl
  exact hno hc

end NovaFederation
