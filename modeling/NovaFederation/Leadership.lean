import NovaFederation.Electorate

/-!
# A master's heartbeat and the key in etcd

What is known of every agent, wherever its heartbeat waits, is `Node.Sound`. Only the delivery of
an answer changes an agent's role or its last completed heartbeat, and what a delivery does is
said once, in `Node.deliver_cases`.
-/

namespace NovaFederation
open Coroutine Schedule
variable {N : Type} {n : N} {k k' : Etcd N} {node node' : Node N}

/-! ### What holds of every agent at any time -/

namespace Node

/-- What is known of a heartbeat that waits, and of the answer if it is there. -/
def Place (k : Etcd N) (n : N) (node : Node N) : Job N → Prop
  | ⟨.refreshLease, next, reply⟩ => node.role = .master ∧ Refreshing next ∧
    ∀ ttl, reply = some (.ok ttl) → ∃ e ∈ node.seen, ∃ lease ∈ node.election.lease,
      (ttl ≠ 0 ↔ lease ∈ e.live) ∧
        (lease ∈ e.live → e.entry = some (node.election.clusterId, lease))
  | ⟨.acquire clusterId, next, reply⟩ => node.role = .worker ∧
    clusterId = node.election.clusterId ∧ Acquiring next ∧
    ∀ lease, reply = some (.ok (true, lease)) → lease.holder = n ∧ k.Guards clusterId lease ∧
      ∃ e ∈ node.seen, e.entry = some (clusterId, lease) ∧
        ∀ e' ∈ node.last, e'.revision < e.revision
  | ⟨.readMaster, next, _⟩ => node.role = .worker ∧ Observing next
  | ⟨.writeRole role, next, _⟩ => node.role = role ∧ Switching role next ∧
    (role = .master → ∃ e ∈ node.seen, node.Held e)
  | _ => False

structure Sound (k : Etcd N) (n : N) (node : Node N) : Prop where
  master : node.role = .master ↔ node.election.lease.isSome = true
  guards : ∀ lease ∈ node.election.lease,
    lease.holder = n ∧ k.Guards node.election.clusterId lease
  seen : ∀ e ∈ node.seen, e.Later k
  last : ∀ e ∈ node.last, e.Later k
  heartbeat : ∀ job ∈ node.heartbeat, node.Place k n job
  requests : ∀ job ∈ node.requests, Revoking (.waiting job.call job.next)

theorem Place.advance {job : Job N} (hp : node.Place k n job) (hk : k.Advances k') :
    node.Place k' n job := by
  obtain ⟨call, next, reply⟩ := job
  cases call with
  | acquire clusterId =>
    obtain ⟨hrole, hc, hnext, hreply⟩ := hp
    refine ⟨hrole, hc, hnext, fun lease hl => ?_⟩
    obtain ⟨hh, hg, he⟩ := hreply lease hl
    exact ⟨hh, hk.guards _ _ hg, he⟩
  | _ => exact hp

theorem Sound.advance (hs : node.Sound k n) (hk : k.Advances k') : node.Sound k' n where
  master := hs.master
  guards := fun lease hl => ⟨(hs.guards lease hl).1, hk.guards _ _ (hs.guards lease hl).2⟩
  seen := fun e he => (hs.seen e he).trans hk.toLater
  last := fun e he => (hs.last e he).trans hk.toLater
  heartbeat := fun job hj => (hs.heartbeat job hj).advance hk
  requests := hs.requests

/-- The heartbeat is over and has left the grip on the key as it was. -/
structure Completed (node node' : Node N) : Prop where
  heartbeat : node'.heartbeat = none
  last : node'.last = node.seen
  seen : node'.seen = node.seen
  requests : node'.requests = node.requests
  role : node'.role = node.role
  lease : node'.election.lease = node.election.lease
  clusterId : node'.election.clusterId = node.election.clusterId
  held : node.role = .master → (node.expired = false ↔ ∃ e ∈ node.seen, node.Held e)

/-- The heartbeat waits again. Who has just won has completed no heartbeat since the key
changed. -/
structure Continued (k : Etcd N) (node node' : Node N) : Prop where
  heartbeat : node'.heartbeat.isSome = true
  expired : node.expired = false
  fresh : node'.role = .master → ∀ e ∈ node'.last, e.revision < k.revision

theorem Completed.sound (hc : Completed node node') (hs : node.Sound k n) : node'.Sound k n where
  master := by
    rw [hc.role, hc.lease]
    exact hs.master
  guards := by
    rw [hc.lease, hc.clusterId]
    exact hs.guards
  seen := by
    rw [hc.seen]
    exact hs.seen
  last := by
    rw [hc.last]
    exact hs.seen
  heartbeat := by
    rw [hc.heartbeat]
    exact fun job hj => nomatch hj
  requests := by
    rw [hc.requests]
    exact hs.requests

theorem held_of_refresh (hs : node.Sound k n) {next : Continuation (Lease N) .refreshLease Unit}
    {ttl : ℕ} (hjob : node.heartbeat = some ⟨.refreshLease, next, some (.ok ttl)⟩) :
    node.expired = false ↔ ∃ e ∈ node.seen, node.Held e := by
  obtain ⟨-, -, hreply⟩ := hs.heartbeat _ hjob
  obtain ⟨e, he, lease, hl, hlive, hentry⟩ := hreply ttl rfl
  have hexp : node.expired = decide (ttl = 0) := by
    simp only [expired, hjob]
  rw [hexp, decide_eq_false_iff_not]
  constructor
  · intro hne
    exact ⟨e, he, lease, hl, hlive.1 hne, hentry (hlive.1 hne)⟩
  · rintro ⟨e', he', lease', hl', hlive', -⟩
    obtain rfl : e = e' := Option.some.inj (he.symm.trans he')
    obtain rfl : lease = lease' := Option.some.inj (hl.symm.trans hl')
    exact hlive.2 hlive'

theorem Sound.lost (hs : node.Sound k n) {next : Continuation (Lease N) (.writeRole .worker) Unit}
    (hnext : Switching .worker next) :
    Sound k n { node with
      agent := { node.agent with election := node.election.lose }
      heartbeat := some ⟨.writeRole .worker, next, none⟩ } where
  master := by simp [RaftElection.lose]
  guards := by simp [RaftElection.lose]
  seen := hs.seen
  last := hs.last
  heartbeat := by
    intro job hj
    obtain rfl := Option.some.inj hj
    exact ⟨rfl, hnext, nofun⟩
  requests := hs.requests

theorem Sound.won (hs : node.Sound k n) {lease : Lease N} (hh : lease.holder = n)
    (hg : k.Guards node.election.clusterId lease)
    (he : ∃ e ∈ node.seen, e.entry = some (node.election.clusterId, lease))
    {next : Continuation (Lease N) (.writeRole .master) Unit} (hnext : Switching .master next) :
    Sound k n { node with
      agent := node.agent.win lease
      heartbeat := some ⟨.writeRole .master, next, none⟩ } where
  master := by simp [CNFAgent.win, RaftElection.become]
  guards := by
    intro l hl
    obtain rfl := Option.some.inj hl
    exact ⟨hh, hg⟩
  seen := hs.seen
  last := hs.last
  heartbeat := by
    intro job hj
    obtain rfl := Option.some.inj hj
    obtain ⟨e, hseen, hentry⟩ := he
    exact ⟨rfl, hnext, fun _ => ⟨e, hseen, lease, rfl, e.attached _ hentry, hentry⟩⟩
  requests := hs.requests

theorem Sound.observing (hs : node.Sound k n) (hrole : node.role = .worker)
    {next : Continuation (Lease N) .readMaster Unit} (hnext : Observing next) :
    Sound k n { node with heartbeat := some ⟨.readMaster, next, none⟩ } where
  master := hs.master
  guards := hs.guards
  seen := hs.seen
  last := hs.last
  heartbeat := by
    intro job hj
    obtain rfl := Option.some.inj hj
    exact ⟨hrole, hnext⟩
  requests := hs.requests

theorem completed_of_done {agent : CNFAgent (Lease N)}
    (hrole : agent.election.state.role = node.role)
    (hlease : agent.election.lease = node.election.lease)
    (hc : agent.election.clusterId = node.election.clusterId)
    (hheld : node.role = .master → (node.expired = false ↔ ∃ e ∈ node.seen, node.Held e)) :
    Completed node { node with agent, heartbeat := none, last := node.seen } :=
  ⟨rfl, rfl, rfl, rfl, hrole, hlease, hc, hheld⟩

structure Steady (node node' : Node N) : Prop where
  role : node'.role = node.role
  lease : node'.election.lease = node.election.lease
  clusterId : node'.election.clusterId = node.election.clusterId
  last : node'.last = node.last

theorem Steady.refl (node : Node N) : Steady node node := ⟨rfl, rfl, rfl, rfl⟩

theorem deliver_cases (hs : node.Sound k n) (hd : node.deliver = some node') :
    Completed node node' ∨ Continued k node node' ∧ node'.Sound k n := by
  unfold deliver at hd
  split at hd
  · next call next reply hjob =>
    obtain rfl := Option.some.inj hd
    have hp := hs.heartbeat _ hjob
    cases call with
    | refreshLease =>
      obtain ⟨hrole, hnext, -⟩ := hp
      rcases reply with x | ttl
      · obtain ⟨next', hsw, heq⟩ := hnext.error x node.agent
        rw [heq]
        exact .inr ⟨⟨rfl, by simp [expired, hjob], nofun⟩, hs.lost hsw⟩
      · obtain ⟨x, heq⟩ := hnext.ok ttl node.agent
        rw [heq]
        exact .inl (completed_of_done rfl rfl rfl fun _ => held_of_refresh hs hjob)
    | acquire clusterId =>
      obtain ⟨hrole, rfl, hnext, hreply⟩ := hp
      rcases reply with x | ⟨_ | _, lease⟩
      · obtain ⟨x, heq⟩ := hnext.error x node.agent
        rw [heq]
        exact .inl (completed_of_done rfl rfl rfl fun hm => by simp [hrole] at hm)
      · obtain ⟨next', hobs, heq⟩ := hnext.lost lease node.agent
        rw [heq]
        refine .inr ⟨⟨rfl, by simp [expired, hjob], fun hm => ?_⟩, hs.observing hrole hobs⟩
        exact absurd (hrole.symm.trans hm) (by simp)
      · obtain ⟨next', hsw, heq⟩ := hnext.won lease node.agent hrole
        obtain ⟨hh, hg, e, he, hentry, hlast⟩ := hreply lease rfl
        rw [heq]
        refine .inr ⟨⟨rfl, by simp [expired, hjob], fun _ e' he' => ?_⟩,
          hs.won hh hg ⟨e, he, hentry⟩ hsw⟩
        exact Nat.lt_of_lt_of_le (hlast e' he') (hs.seen e he).revision
    | readMaster =>
      obtain ⟨hrole, hnext⟩ := hp
      rcases reply with x | masterId
      · obtain ⟨x, heq⟩ := hnext.error x node.agent
        rw [heq]
        exact .inl (completed_of_done rfl rfl rfl fun hm => by simp [hrole] at hm)
      · obtain ⟨x, heq⟩ := hnext.ok masterId node.agent
        obtain ⟨hr, hl, hc⟩ := node.election.observe_grip masterId
        rw [heq]
        exact .inl (completed_of_done hr hl hc fun hm => by simp [hrole] at hm)
    | writeRole role =>
      obtain ⟨rfl, hnext, hheld⟩ := hp
      have hexp : node.expired = false := by simp [expired, hjob]
      have hiff (hm : node.role = .master) :
          node.expired = false ↔ ∃ e ∈ node.seen, node.Held e :=
        iff_of_true hexp (hheld hm)
      rcases reply with x | _
      · obtain ⟨x, heq⟩ := hnext.error x node.agent
        rw [heq]
        exact .inl (completed_of_done rfl rfl rfl hiff)
      · obtain ⟨x, heq⟩ := hnext.ok node.agent
        rw [heq]
        exact .inl (completed_of_done rfl rfl rfl hiff)
    | initDb => exact hp.elim
    | upsertSelfCluster => exact hp.elim
    | registerPeer clusterId grpcAddr => exact hp.elim
    | startGrpc => exact hp.elim
    | revokeLease => exact hp.elim
  · cases hd

theorem beat_cases (hs : node.Sound k n) (hb : node.beat = some node') :
    node'.Sound k n ∧ Steady node node' := by
  unfold beat at hb
  split_ifs at hb
  obtain rfl := Option.some.inj hb
  by_cases hm : node.role = .master ∧ node.election.lease.isSome = true
  · obtain ⟨next, hnext, heq⟩ := settle_master hm
    rw [heq]
    refine ⟨⟨hs.master, hs.guards, nofun, hs.last, fun job hj => ?_, hs.requests⟩,
      rfl, rfl, rfl, rfl⟩
    obtain rfl := Option.some.inj hj
    exact ⟨hm.1, hnext, nofun⟩
  · obtain ⟨next, hnext, heq⟩ := settle_worker hm
    have hw : node.role = .worker := by
      cases hrole : node.role with
      | worker => rfl
      | master => exact absurd ⟨hrole, hs.master.1 hrole⟩ hm
    rw [heq]
    refine ⟨⟨hs.master, hs.guards, nofun, hs.last, fun job hj => ?_, hs.requests⟩,
      rfl, rfl, rfl, rfl⟩
    obtain rfl := Option.some.inj hj
    exact ⟨hw, rfl, hnext, nofun⟩

theorem submit_cases (hs : node.Sound k n)
    {p : Paused (CNFAgent (Lease N)) PyException AgentCall (AgentCall.Reply (Lease N)) Unit}
    (hp : Revoking p) :
    (node.submit (node.agent, p)).Sound k n ∧ Steady node (node.submit (node.agent, p)) := by
  cases hp with
  | done x => exact ⟨hs, .refl node⟩
  | waiting next hnext =>
    refine ⟨⟨hs.master, hs.guards, hs.seen, hs.last, hs.heartbeat, fun job hj => ?_⟩,
      rfl, rfl, rfl, rfl⟩
    rcases List.mem_cons.1 hj with rfl | hj
    · exact .waiting next hnext
    · exact hs.requests job hj

theorem forceElect_cases (hs : node.Sound k n) (target : String) :
    (node.forceElect target).Sound k n ∧ Steady node (node.forceElect target) := by
  obtain ⟨hagent, hr⟩ := Revoking.map (settle_forceElect node.agent target) fun _ => ()
  unfold forceElect
  rcases hq : settle node.agent (RaftElection.forceElect target >>= fun _ => pure ()) with ⟨t, p⟩
  rw [hq] at hagent hr
  obtain rfl : t = node.agent := hagent
  exact submit_cases hs hr

theorem stop_cases (hs : node.Sound k n) : node.stop.Sound k n ∧ Steady node node.stop := by
  obtain ⟨hagent, hr⟩ := settle_stop node.agent
  unfold stop
  rcases hq : settle node.agent RaftElection.stop with ⟨t, p⟩
  rw [hq] at hagent hr
  obtain rfl : t = _ := hagent
  have hs' : Sound k n { node with
      agent := { node.agent with election := { node.election with running := false } }
      heartbeat := none
      orphans := node.orphans + node.abandoned } :=
    ⟨hs.master, hs.guards, hs.seen, hs.last,
      fun job hj => absurd hj (Option.not_mem_none job), hs.requests⟩
  obtain ⟨hsub, -⟩ := submit_cases hs' hr
  cases hr with
  | done x => exact ⟨hsub, rfl, rfl, rfl, rfl⟩
  | waiting next hnext => exact ⟨hsub, rfl, rfl, rfl, rfl⟩

theorem finish_cases (hs : node.Sound k n) {job : Job N} {i : ℕ} (hj : node.requests[i]? = some job)
    (reply : Except PyException (job.call.Reply (Lease N))) :
    ({ node with requests := node.requests.eraseIdx i }.submit
        (settle node.agent (job.next reply))).Sound k n ∧
      Steady node ({ node with requests := node.requests.eraseIdx i }.submit
        (settle node.agent (job.next reply))) := by
  have hrev := hs.requests job (List.mem_of_getElem? hj)
  obtain ⟨call, next, r⟩ := job
  cases hrev with
  | waiting _ hnext =>
    obtain ⟨x, hx⟩ := hnext reply node.agent
    dsimp only
    rw [hx]
    exact ⟨⟨hs.master, hs.guards, hs.seen, hs.last, hs.heartbeat, fun job hj =>
      hs.requests job (List.mem_of_mem_eraseIdx hj)⟩, rfl, rfl, rfl, rfl⟩

end Node

/-! ### Requests to etcd -/

variable [DecidableEq N]

theorem advances_execute (n : N) (agent : CNFAgent (Lease N)) (remaining : ℕ) (k : Etcd N)
    (c : AgentCall) : k.Advances (execute n agent remaining k c).1 := by
  cases c with
  | acquire clusterId => exact LeasedKey.advances_acquire k n clusterId
  | refreshLease =>
    simp only [execute]
    split <;> exact .refl k
  | revokeLease =>
    simp only [execute]
    split
    · exact LeasedKey.advances_drop k _
    · exact .refl k
  | _ => exact .refl k

theorem advances_faulty (fault : Option Fault) (n : N) (agent : CNFAgent (Lease N))
    (remaining : ℕ) (k : Etcd N) (c : AgentCall) :
    k.Advances (faulty fault n agent remaining k c).1 := by
  rcases fault with _ | _ | _
  · exact advances_execute n agent remaining k c
  · exact .refl k
  · exact advances_execute n agent remaining k c

/-- An answer comes from a request that was executed and not lost. -/
theorem faulty_ok {fault : Option Fault} {agent : CNFAgent (Lease N)} {remaining : ℕ}
    {c : AgentCall} {v : c.Reply (Lease N)} (h : (faulty fault n agent remaining k c).2 = .ok v) :
    faulty fault n agent remaining k c = execute n agent remaining k c := by
  rcases fault with _ | _ | _
  · rfl
  · cases h
  · cases h

namespace Node

theorem place_served (hs : node.Sound k n) {call : AgentCall}
    {next : Continuation (Lease N) call Unit}
    (hjob : node.heartbeat = some ⟨call, next, none⟩) (fault : Option Fault) (remaining : ℕ) :
    let answer := faulty fault n node.agent remaining k call
    Place answer.1 n { node with
      heartbeat := some ⟨call, next, some answer.2⟩
      seen := if call.onEtcd then some answer.1 else node.seen } ⟨call, next, some answer.2⟩ := by
  have hp := hs.heartbeat _ hjob
  intro answer
  cases call with
  | refreshLease =>
    obtain ⟨hrole, hnext, -⟩ := hp
    refine ⟨hrole, hnext, fun ttl hr => ?_⟩
    have hex := faulty_ok (Option.some.inj hr)
    obtain ⟨lease, hlease⟩ := Option.isSome_iff_exists.1 (hs.master.1 hrole)
    have hval : execute n node.agent remaining k .refreshLease =
        (k, .ok (k.timeToLive lease remaining)) := by
      simp only [execute, hlease]
    have hans : answer = (k, .ok (k.timeToLive lease remaining)) := hex.trans hval
    rw [hans] at hr ⊢
    obtain rfl : k.timeToLive lease remaining = ttl := by simpa using hr
    exact ⟨k, rfl, lease, hlease, LeasedKey.timeToLive_ne_zero_iff,
      (hs.guards lease hlease).2.entry⟩
  | acquire clusterId =>
    obtain ⟨hrole, hc, hnext, -⟩ := hp
    refine ⟨hrole, hc, hnext, fun lease hr => ?_⟩
    have hans : answer = (k.acquire n clusterId, .ok (k.entry.isNone, k.nextLease n)) :=
      faulty_ok (Option.some.inj hr)
    rw [hans] at hr ⊢
    obtain ⟨hfree, rfl⟩ : k.entry.isNone = true ∧ k.nextLease n = lease := by simpa using hr
    have hfree : k.entry = none := Option.isNone_iff_eq_none.1 hfree
    obtain ⟨hentry, hrev⟩ := LeasedKey.acquire_of_free hfree n clusterId
    refine ⟨rfl, LeasedKey.guards_acquire hfree n clusterId, _, rfl, hentry, fun e he => ?_⟩
    exact Nat.lt_of_le_of_lt (hs.last e he).revision hrev
  | readMaster => exact hp
  | writeRole role => exact hp
  | initDb => exact hp
  | upsertSelfCluster => exact hp
  | registerPeer clusterId grpcAddr => exact hp
  | startGrpc => exact hp
  | revokeLease => exact hp

theorem sound_served (hs : node.Sound k n) {call : AgentCall}
    {next : Continuation (Lease N) call Unit}
    (hjob : node.heartbeat = some ⟨call, next, none⟩) (fault : Option Fault) (remaining : ℕ) :
    let answer := faulty fault n node.agent remaining k call
    Sound answer.1 n { node with
      heartbeat := some ⟨call, next, some answer.2⟩
      seen := if call.onEtcd then some answer.1 else node.seen } := by
  intro answer
  have hk : k.Advances answer.1 := advances_faulty fault n node.agent remaining k call
  have hs' := hs.advance hk
  refine ⟨hs'.master, hs'.guards, fun e he => ?_, hs'.last, fun job hj => ?_, hs.requests⟩
  · dsimp only at he
    split_ifs at he
    · obtain rfl := Option.some.inj he
      exact .refl _
    · exact hs'.seen e he
  · obtain rfl := Option.some.inj hj
    exact place_served hs hjob fault remaining

end Node

end NovaFederation
