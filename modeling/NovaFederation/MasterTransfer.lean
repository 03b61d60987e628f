import Mathlib.Data.List.Chain
import NovaFederation.ElectionNode

/-!
# What the history of an election node guarantees

The lease, the role and the callbacks of a node agree in every history. The guard of `force_elect`
does not look at any of them: it reads the name of the master, which losing leaves as it is.
-/

namespace NovaFederation
open Coroutine Schedule
variable {L : Type}

inductive Electing (s : CNFAgent L) :
    CNFAgent L × Paused (CNFAgent L) PyException AgentCall (AgentCall.Reply L) Bool → Prop
  | refused (hid : s.election.state.masterId ≠ s.election.clusterId) :
    Electing s (s, .done (.ok false))
  | unleased (hid : s.election.state.masterId = s.election.clusterId)
    (hlease : s.election.lease = none) : Electing s (s, .done (.ok true))
  | revoking (hid : s.election.state.masterId = s.election.clusterId)
    (hlease : s.election.lease.isSome = true) (next : Continuation L .revokeLease Bool)
    (hnext : ∀ r s, settle s (next r) = (s, .done (.ok true))) :
    Electing s (s, .waiting .revokeLease next)

theorem electing (s : CNFAgent L) (target : String) :
    Electing s (settle s (RaftElection.forceElect target)) := by
  rw [RaftElection.forceElect, settle_bind, settle_read]
  dsimp only
  split_ifs with hid
  · exact .refused hid
  · rw [not_not] at hid
    rw [settle_bind, RaftElection.revokeLease, settle_bind, settle_read]
    dsimp only
    cases hlease : s.election.lease with
    | none => exact .unleased hid hlease
    | some lease =>
      refine .revoking hid (by simp [hlease]) _ ?_
      rintro (e | _) s
      · rfl
      · rfl

/-! ### Tidings -/

/-- What etcd does with a lease of the node, or what a heartbeat hears of it. -/
inductive Tiding (L : Type)
  | won (lease : L)
  | lost
  | revoked (lease : L)
  deriving DecidableEq

def Tiding.leaves (lease : Option L) : Tiding L → Option L
  | .won lease => some lease
  | .lost => none
  -- the node does not look at what became of a revocation
  | .revoked _ => lease

def held (log : List (Tiding L)) : Option L := log.foldl Tiding.leaves none

theorem held_append (log told : List (Tiding L)) :
    held (log ++ told) = told.foldl Tiding.leaves (held log) := List.foldl_append

def heard : (c : AgentCall) → Except PyException (c.Reply L) → List (Tiding L)
  | .acquire _, .ok (true, lease) => [.won lease]
  | .refreshLease, .error _ => [.lost]
  | _, _ => []

namespace ElectionNode
variable {s s' : ElectionNode L} {a : NodeAct L} {acts : List (NodeAct L)}

def executed (s : ElectionNode L) : Option Fault → List (Tiding L)
  | some .request => []
  | _ => s.agent.election.lease.toList.map .revoked

def tidings (s : ElectionNode L) : NodeAct L → List (Tiding L)
  | .answer answers => s.heartbeat.toList.flatMap fun job => heard job.call (answers job.call)
  | .revoke _ fault => s.executed fault
  | .finish _ fault => s.executed fault
  | _ => []

/-! ### Steps -/

structure Sound (s : ElectionNode L) : Prop where
  leased : s.agent.election.lease.isSome = true ↔ s.role = .master
  waiting : ∀ job ∈ s.heartbeat, s.agent.At job.call job.next
  transfers : ∀ t ∈ s.transfers, ∀ r agent,
    settle agent (t.job.next r) = (agent, .done (.ok true))
  stops : ∀ job ∈ s.stops, ∀ r agent, ∃ x, settle agent (job.next r) = (agent, .done x)

/-- What a segment of a heartbeat does to the role, with what its reply tells and the callback that
it calls. -/
inductive Turn (told : List (Tiding L)) (s s' : ElectionNode L) : Prop
  | quiet (htold : told = []) (hrole : s'.role = s.role)
    (hlease : s'.agent.election.lease = s.agent.election.lease)
    (hterm : s'.agent.election.state.term = s.agent.election.state.term)
    (hcallbacks : s'.callbacks = s.callbacks)
  | won (lease : L) (htold : told = [.won lease]) (hwas : s.role = .worker)
    (hrole : s'.role = .master) (hlease : s'.agent.election.lease = some lease)
    (hterm : s'.agent.election.state.term = s.agent.election.state.term + 1)
    (hcallbacks : s'.callbacks = s.callbacks ++ [.master])
  | lost (htold : told = [.lost]) (hwas : s.role = .master) (hrole : s'.role = .worker)
    (hlease : s'.agent.election.lease = none)
    (hterm : s'.agent.election.state.term = s.agent.election.state.term)
    (hcallbacks : s'.callbacks = s.callbacks ++ [.worker])

structure Beaten (told : List (Tiding L)) (s s' : ElectionNode L) : Prop where
  turn : Turn told s s'
  waiting : ∀ job ∈ s'.heartbeat, s'.agent.At job.call job.next
  transfers : s'.transfers = s.transfers
  stops : s'.stops = s.stops
  revoked : s'.revoked = s.revoked
  verdicts : s'.verdicts = s.verdicts

theorem beaten_done {agent : CNFAgent L} (hrole : agent.role = s.role)
    (hlease : agent.election.lease = s.agent.election.lease)
    (hterm : agent.election.state.term = s.agent.election.state.term)
    (x : Except PyException Unit) : Beaten [] s (s.proceed (agent, .done x)) :=
  ⟨.quiet rfl hrole hlease hterm rfl, fun job hj => absurd hj (Option.not_mem_none job),
    rfl, rfl, rfl, rfl⟩

theorem beaten_waiting {told : List (Tiding L)} {agent : CNFAgent L} {c : AgentCall}
    {next : Continuation L c Unit} (hat : agent.At c next)
    (hturn : Turn told s (s.proceed (agent, .waiting c next))) :
    Beaten told s (s.proceed (agent, .waiting c next)) := by
  refine ⟨hturn, ?_, rfl, rfl, rfl, rfl⟩
  intro job hj
  obtain rfl := Option.mem_some_iff.1 hj
  exact hat

theorem beaten_beat (hs : s.Sound) (h : s.beat = some s') : Beaten [] s s' := by
  unfold beat at h
  split_ifs at h with hrun
  obtain rfl := Option.some.inj h
  by_cases hm : s.role = .master ∧ s.agent.election.lease.isSome = true
  · obtain ⟨next, hnext, heq⟩ := settle_master hm
    rw [heq]
    exact beaten_waiting ⟨hm.1, hnext⟩ (.quiet rfl rfl rfl rfl (List.append_nil _))
  · obtain ⟨next, hnext, heq⟩ := settle_worker hm
    have hw : s.role = .worker := by
      cases hrole : s.role with
      | worker => rfl
      | master => exact absurd ⟨hrole, hs.leased.2 hrole⟩ hm
    rw [heq]
    exact beaten_waiting ⟨hw, hnext⟩ (.quiet rfl rfl rfl rfl (List.append_nil _))

theorem beaten_answer (hs : s.Sound) {answers : Answers PyException AgentCall (AgentCall.Reply L)}
    (h : s.answer answers = some s') : Beaten (s.tidings (.answer answers)) s s' := by
  obtain ⟨job, hjob, rfl⟩ := Option.map_eq_some_iff.1 h
  have htold : s.tidings (.answer answers) = heard job.call (answers job.call) := by
    simp [tidings, hjob]
  rw [htold]
  have hat := hs.waiting job hjob
  obtain ⟨c, next, reply⟩ := job
  dsimp only at hat ⊢
  generalize answers c = r
  cases c with
  | refreshLease =>
    obtain ⟨hrole, hnext⟩ := hat
    rcases r with e | ttl
    · obtain ⟨next', hsw, heq⟩ := hnext.error e s.agent
      rw [heq]
      exact beaten_waiting ⟨rfl, hsw⟩ (.lost rfl hrole rfl rfl rfl rfl)
    · obtain ⟨x, heq⟩ := hnext.ok ttl s.agent
      rw [heq]
      exact beaten_done rfl rfl rfl x
  | acquire clusterId =>
    obtain ⟨hrole, hnext⟩ := hat
    rcases r with e | ⟨_ | _, lease⟩
    · obtain ⟨x, heq⟩ := hnext.error e s.agent
      rw [heq]
      exact beaten_done rfl rfl rfl x
    · obtain ⟨next', hobs, heq⟩ := hnext.lost lease s.agent
      rw [heq]
      exact beaten_waiting hobs (.quiet rfl rfl rfl rfl (List.append_nil _))
    · obtain ⟨next', hsw, heq⟩ := hnext.won lease s.agent hrole
      rw [heq]
      exact beaten_waiting ⟨rfl, hsw⟩ (.won lease rfl hrole rfl rfl rfl rfl)
  | readMaster =>
    rcases r with e | masterId
    · obtain ⟨x, heq⟩ := hat.error e s.agent
      rw [heq]
      exact beaten_done rfl rfl rfl x
    · obtain ⟨x, heq⟩ := hat.ok masterId s.agent
      obtain ⟨hrole, hlease, -⟩ := s.agent.election.observe_grip masterId
      have hterm : (s.agent.election.observe masterId).state.term =
          s.agent.election.state.term := by
        unfold RaftElection.observe
        split_ifs <;> rfl
      rw [heq]
      exact beaten_done hrole hlease hterm x
  | writeRole role =>
    obtain ⟨-, hnext⟩ := hat
    rcases r with e | v
    · obtain ⟨x, heq⟩ := hnext.error e s.agent
      rw [heq]
      exact beaten_done rfl rfl rfl x
    · obtain ⟨x, heq⟩ := hnext.ok s.agent
      have hrole : (s.agent.switch role).role = s.role := rfl
      rw [heq]
      exact beaten_done hrole rfl rfl x
  | initDb => exact hat.elim
  | upsertSelfCluster => exact hat.elim
  | registerPeer clusterId grpcAddr => exact hat.elim
  | startGrpc => exact hat.elim
  | revokeLease => exact hat.elim

/-! ### Requests -/

/-- What a call of `force_elect` comes to, up to its return or to the revocation. -/
inductive Forced (s : ElectionNode L) : ElectionNode L → Prop
  | refused (hid : s.masterId ≠ s.agent.election.clusterId) (v : Verdict L)
    (hv : v.result = false) : Forced s { s with verdicts := s.verdicts ++ [v] }
  | unleased (hid : s.masterId = s.agent.election.clusterId)
    (hlease : s.agent.election.lease = none) :
    Forced s { s with verdicts := s.verdicts ++ [⟨true, s.role, none, s.revoked, s.role⟩] }
  | revoking (hid : s.masterId = s.agent.election.clusterId)
    (hlease : s.agent.election.lease.isSome = true) (next : Continuation L .revokeLease Bool)
    (hnext : ∀ r agent, settle agent (next r) = (agent, .done (.ok true))) :
    Forced s { s with
      transfers := ⟨⟨.revokeLease, next, none⟩, s.role, s.agent.election.lease⟩ :: s.transfers }

theorem forced (s : ElectionNode L) (target : String) : Forced s (s.forceElect target) := by
  have he := electing s.agent target
  unfold forceElect
  generalize settle s.agent (RaftElection.forceElect target) = q at he
  cases he with
  | refused hid => exact .refused hid _ rfl
  | unleased hid hlease =>
    rw [hlease]
    exact .unleased hid hlease
  | revoking hid hlease next hnext => exact .revoking hid hlease next hnext

theorem conclude_spec (hs : s.Sound) {i : ℕ} (h : s.conclude i = some s') :
    ∃ t, s.transfers[i]? = some t ∧ s' = { s with
      transfers := s.transfers.eraseIdx i
      verdicts := s.verdicts ++ [⟨true, t.calledAs, t.lease, s.revoked, s.role⟩] } := by
  unfold conclude at h
  split at h
  · next call next reply calledAs lease ht =>
    have hnext := hs.transfers _ (List.mem_of_getElem? ht) reply s.agent
    dsimp only at hnext
    rw [hnext] at h
    exact ⟨_, ht, (Option.some.inj h).symm⟩
  · cases h

theorem revoke_spec {i : ℕ} {fault : Option Fault} (h : s.revoke i fault = some s') :
    ∃ next calledAs lease reply,
      s.transfers[i]? = some ⟨⟨.revokeLease, next, none⟩, calledAs, lease⟩ ∧ s' = { s with
        revoked := (s.revocation fault).1
        transfers := s.transfers.set i ⟨⟨.revokeLease, next, some reply⟩, calledAs, lease⟩ } := by
  unfold revoke at h
  split at h
  · next next calledAs lease ht =>
    exact ⟨next, calledAs, lease, _, ht, (Option.some.inj h).symm⟩
  · cases h

theorem stop_spec (s : ElectionNode L) : ∃ stops, s.stop = { s with
    agent := { s.agent with election := { s.agent.election with running := false } }
    heartbeat := none
    stops } ∧ ((∀ job ∈ s.stops, ∀ r agent, ∃ x, settle agent (job.next r) = (agent, .done x)) →
      ∀ job ∈ stops, ∀ r agent, ∃ x, settle agent (job.next r) = (agent, .done x)) := by
  obtain ⟨hagent, hr⟩ := settle_stop s.agent
  unfold stop
  rcases hq : settle s.agent RaftElection.stop with ⟨agent, q⟩
  rw [hq] at hagent hr
  obtain rfl : agent = _ := hagent
  cases hr with
  | done x => exact ⟨_, rfl, id⟩
  | waiting next hnext =>
    refine ⟨_, rfl, fun hstops => ?_⟩
    rw [List.forall_mem_cons]
    exact ⟨hnext, hstops⟩

theorem finish_spec (hs : s.Sound) {i : ℕ} {fault : Option Fault} (h : s.finish i fault = some s') :
    s' = { s with revoked := (s.revocation fault).1, stops := s.stops.eraseIdx i } := by
  unfold finish at h
  split at h
  · next next reply hjob =>
    obtain ⟨x, hx⟩ := hs.stops _ (List.mem_of_getElem? hjob) (s.revocation fault).2 s.agent
    dsimp only at hx
    rw [hx] at h
    exact (Option.some.inj h).symm
  · cases h

/-! ### The invariant -/

theorem Beaten.sound {told : List (Tiding L)} (hb : Beaten told s s') (hs : s.Sound) :
    s'.Sound where
  leased := by
    cases hb.turn with
    | quiet htold hrole hlease hterm hcallbacks => rw [hlease, hrole, hs.leased]
    | won lease htold hwas hrole hlease hterm hcallbacks => simp [hlease, hrole]
    | lost htold hwas hrole hlease hterm hcallbacks => simp [hlease, hrole]
  waiting := hb.waiting
  transfers := by
    rw [hb.transfers]
    exact hs.transfers
  stops := by
    rw [hb.stops]
    exact hs.stops

theorem sound_start (clusterId grpcAddr : String) (scheduler : Option Scheduler) :
    (start clusterId grpcAddr scheduler : ElectionNode L).Sound :=
  ⟨by simp [start], fun job hj => absurd hj (Option.not_mem_none job), by simp [start],
    by simp [start]⟩

theorem sound_step (hs : s.Sound) (h : step s a = some s') : s'.Sound := by
  cases a with
  | beat => exact (beaten_beat hs h).sound hs
  | answer answers => exact (beaten_answer hs h).sound hs
  | forceElect target =>
    obtain rfl := Option.some.inj h
    have hf := forced s target
    generalize s.forceElect target = s' at hf
    cases hf with
    | refused hid v hv => exact ⟨hs.leased, hs.waiting, hs.transfers, hs.stops⟩
    | unleased hid hlease => exact ⟨hs.leased, hs.waiting, hs.transfers, hs.stops⟩
    | revoking hid hlease next hnext =>
      refine ⟨hs.leased, hs.waiting, ?_, hs.stops⟩
      rw [List.forall_mem_cons]
      exact ⟨hnext, hs.transfers⟩
  | revoke i fault =>
    obtain ⟨next, calledAs, lease, reply, ht, rfl⟩ := revoke_spec h
    refine ⟨hs.leased, hs.waiting, ?_, hs.stops⟩
    intro t hmem
    rcases List.mem_or_eq_of_mem_set hmem with hmem | rfl
    · exact hs.transfers t hmem
    · have hold := hs.transfers _ (List.mem_of_getElem? ht)
      exact hold
  | conclude i =>
    obtain ⟨t, ht, rfl⟩ := conclude_spec hs h
    exact ⟨hs.leased, hs.waiting, fun t hmem => hs.transfers t (List.mem_of_mem_eraseIdx hmem),
      hs.stops⟩
  | stop =>
    obtain rfl := Option.some.inj h
    obtain ⟨stops, hstop, hkeeps⟩ := stop_spec s
    rw [hstop]
    exact ⟨hs.leased, fun job hj => absurd hj (Option.not_mem_none job), hs.transfers,
      hkeeps hs.stops⟩
  | finish i fault =>
    obtain rfl := finish_spec hs h
    exact ⟨hs.leased, hs.waiting, hs.transfers,
      fun job hmem => hs.stops job (List.mem_of_mem_eraseIdx hmem)⟩

/-! ### The callbacks -/

/-- The callbacks alternate from `on_become_master` on, there have been as many of these as terms,
and the node is master just if the last one was such. -/
structure Alternating (s : ElectionNode L) : Prop where
  alternate : (NodeRole.worker :: s.callbacks).IsChain (· ≠ ·)
  counted : s.callbacks.count .master = s.agent.election.state.term
  last : s.role = .master ↔ s.callbacks.getLast? = some .master

theorem Alternating.getLast_eq (hs : s.Alternating) :
    (NodeRole.worker :: s.callbacks).getLast? = some s.role := by
  rw [List.getLast?_cons]
  congr 1
  have hlast := hs.last
  rcases hcb : s.callbacks.getLast? with _ | _ | _
  · rw [hcb] at hlast
    cases hrole : s.role with
    | worker => rfl
    | master => simp [hrole] at hlast
  · rw [hcb] at hlast
    exact (hlast.2 rfl).symm
  · rw [hcb] at hlast
    cases hrole : s.role with
    | worker => rfl
    | master => simp [hrole] at hlast

theorem Alternating.snoc (hs : s.Alternating) {role : NodeRole} (hrole : s.role ≠ role) :
    (NodeRole.worker :: (s.callbacks ++ [role])).IsChain (· ≠ ·) := by
  rw [← List.cons_append]
  refine List.isChain_append.2 ⟨hs.alternate, List.isChain_singleton _, ?_⟩
  intro x hx y hy
  rw [hs.getLast_eq] at hx
  obtain rfl := Option.mem_some_iff.1 hx
  obtain rfl := Option.mem_some_iff.1 hy
  exact hrole

theorem Alternating.announce (hs : s.Alternating) {role : NodeRole} (hne : s.role ≠ role)
    (hrole : s'.role = role) (hcallbacks : s'.callbacks = s.callbacks ++ [role])
    (hterm : s'.agent.election.state.term =
      s.agent.election.state.term + [role].count .master) : s'.Alternating where
  alternate := by
    rw [hcallbacks]
    exact hs.snoc hne
  counted := by rw [hcallbacks, hterm, List.count_append, hs.counted]
  last := by
    rw [hcallbacks, hrole]
    simp

theorem Turn.alternating {told : List (Tiding L)} (ht : Turn told s s') (hs : s.Alternating) :
    s'.Alternating := by
  cases ht with
  | quiet htold hrole hlease hterm hcallbacks =>
    constructor
    · rw [hcallbacks]
      exact hs.alternate
    · rw [hcallbacks, hterm, hs.counted]
    · rw [hcallbacks, hrole, hs.last]
  | won lease htold hwas hrole hlease hterm hcallbacks =>
    exact hs.announce (by simp [hwas]) hrole hcallbacks hterm
  | lost htold hwas hrole hlease hterm hcallbacks =>
    exact hs.announce (by simp [hwas]) hrole hcallbacks hterm

theorem alternating_step (hs : s.Sound) (ha : s.Alternating) (h : step s a = some s') :
    s'.Alternating := by
  have hkept : ∀ t : ElectionNode L, t.callbacks = s.callbacks →
      t.agent.election.state = s.agent.election.state → t.Alternating := by
    intro t hcallbacks hstate
    have hrole : t.role = s.role := congrArg ElectionState.role hstate
    exact ⟨by rw [hcallbacks]; exact ha.alternate, by rw [hcallbacks, hstate]; exact ha.counted,
      by rw [hcallbacks, hrole]; exact ha.last⟩
  cases a with
  | beat => exact (beaten_beat hs h).turn.alternating ha
  | answer answers => exact (beaten_answer hs h).turn.alternating ha
  | forceElect target =>
    obtain rfl := Option.some.inj h
    have hf := forced s target
    generalize s.forceElect target = s' at hf
    cases hf with
    | refused hid v hv => exact hkept _ rfl rfl
    | unleased hid hlease => exact hkept _ rfl rfl
    | revoking hid hlease next hnext => exact hkept _ rfl rfl
  | revoke i fault =>
    obtain ⟨next, calledAs, lease, reply, ht, rfl⟩ := revoke_spec h
    exact hkept _ rfl rfl
  | conclude i =>
    obtain ⟨t, ht, rfl⟩ := conclude_spec hs h
    exact hkept _ rfl rfl
  | stop =>
    obtain rfl := Option.some.inj h
    obtain ⟨stops, hstop, -⟩ := stop_spec s
    rw [hstop]
    exact hkept _ rfl rfl
  | finish i fault =>
    obtain rfl := finish_spec hs h
    exact hkept _ rfl rfl

/-- In every history of one node, whatever its calls and its callbacks are answered. -/
theorem callbacks_alternate (clusterId grpcAddr : String) (scheduler : Option Scheduler)
    (acts : List (NodeAct L)) :
    Along step (fun _ _ s' => s'.Alternating) (start clusterId grpcAddr scheduler) acts := by
  apply Along.imp (P := fun _ _ _ => True) (fun s => s.Sound ∧ s.Alternating)
  · rintro s a s' h ⟨hs, ha⟩ -
    have ha' := alternating_step hs ha h
    exact ⟨ha', sound_step hs h, ha'⟩
  · exact ⟨sound_start _ _ _, List.isChain_singleton _, rfl, by simp [start]⟩
  · exact along_of_forall fun _ _ _ => trivial

/-! ### The transfer -/

def Honest (s : ElectionNode L) : Prop := ∀ v ∈ s.verdicts, v.Honest

/-- A call passes the guard only while no refresh has failed since the last election that was won.
By the time the answer to its revocation is handled, etcd has revoked the lease that the node had
at the call, and a refresh has failed since the call with no election won after it. -/
def Careful (s : ElectionNode L) (log : List (Tiding L)) : NodeAct L → Prop
  | .forceElect _ => s.masterId = s.agent.election.clusterId → (held log).isSome = true
  | .conclude i => ∀ t ∈ s.transfers[i]?,
    (∃ lease ∈ t.lease, .revoked lease ∈ log) ∧ held log = none
  | _ => True

/-- The tidings so far account for the lease of the node and for the leases that are revoked. -/
structure Traced (s : ElectionNode L) (log : List (Tiding L)) : Prop where
  sound : s.Sound
  lease : s.agent.election.lease = held log
  revoked : ∀ lease, lease ∈ s.revoked ↔ .revoked lease ∈ log

theorem traced_start (clusterId grpcAddr : String) (scheduler : Option Scheduler) :
    (start clusterId grpcAddr scheduler : ElectionNode L).Traced [] :=
  ⟨sound_start _ _ _, rfl, by simp [start]⟩

theorem Turn.lease_eq {told : List (Tiding L)} (ht : Turn told s s') :
    s'.agent.election.lease = told.foldl Tiding.leaves s.agent.election.lease := by
  cases ht with
  | quiet htold hrole hlease hterm hcallbacks =>
    rw [htold, hlease]
    rfl
  | won lease htold hwas hrole hlease hterm hcallbacks =>
    rw [htold, hlease]
    rfl
  | lost htold hwas hrole hlease hterm hcallbacks =>
    rw [htold, hlease]
    rfl

theorem Turn.not_revoked {told : List (Tiding L)} (ht : Turn told s s') (lease : L) :
    .revoked lease ∉ told := by
  cases ht with
  | quiet htold hrole hlease hterm hcallbacks => simp [htold]
  | won lease' htold hwas hrole hlease hterm hcallbacks => simp [htold]
  | lost htold hwas hrole hlease hterm hcallbacks => simp [htold]

theorem Beaten.traced {told log : List (Tiding L)} (hb : Beaten told s s') (ht : s.Traced log) :
    s'.Traced (log ++ told) where
  sound := hb.sound ht.sound
  lease := by rw [hb.turn.lease_eq, ht.lease, held_append]
  revoked lease := by simp [hb.revoked, ht.revoked lease, hb.turn.not_revoked lease]

theorem foldl_executed (s : ElectionNode L) (fault : Option Fault) (lease : Option L) :
    (s.executed fault).foldl Tiding.leaves lease = lease := by
  unfold executed
  split
  · rfl
  · cases s.agent.election.lease with
    | none => rfl
    | some held => rfl

theorem mem_revocation (s : ElectionNode L) (fault : Option Fault) (lease : L) :
    lease ∈ (s.revocation fault).1 ↔ lease ∈ s.revoked ∨ .revoked lease ∈ s.executed fault := by
  unfold revocation executed
  rcases s.agent.election.lease with _ | held
  · rcases fault with _ | _ | _
    · simp
    · simp
    · simp
  · rcases fault with _ | _ | _
    · simp [or_comm]
    · simp
    · simp [or_comm]

theorem Traced.execute {log : List (Tiding L)} (ht : s.Traced log) {fault : Option Fault}
    (hsound : s'.Sound) (hlease : s'.agent.election.lease = s.agent.election.lease)
    (hrevoked : s'.revoked = (s.revocation fault).1) :
    s'.Traced (log ++ s.executed fault) where
  sound := hsound
  lease := by rw [hlease, held_append, foldl_executed, ht.lease]
  revoked lease := by rw [hrevoked, mem_revocation, ht.revoked lease, List.mem_append]

theorem Traced.keep {log : List (Tiding L)} (ht : s.Traced log) (hsound : s'.Sound)
    (hlease : s'.agent.election.lease = s.agent.election.lease)
    (hrevoked : s'.revoked = s.revoked) : s'.Traced (log ++ []) := by
  rw [List.append_nil]
  exact ⟨hsound, hlease.trans ht.lease, by rw [hrevoked]; exact ht.revoked⟩

theorem traced_step {log : List (Tiding L)} (ht : s.Traced log) (h : step s a = some s') :
    s'.Traced (log ++ s.tidings a) := by
  have hsound := sound_step ht.sound h
  cases a with
  | beat => exact (beaten_beat ht.sound h).traced ht
  | answer answers => exact (beaten_answer ht.sound h).traced ht
  | forceElect target =>
    obtain rfl := Option.some.inj h
    have hf := forced s target
    generalize s.forceElect target = s' at hf hsound
    cases hf with
    | refused hid v hv => exact ht.keep hsound rfl rfl
    | unleased hid hlease => exact ht.keep hsound rfl rfl
    | revoking hid hlease next hnext => exact ht.keep hsound rfl rfl
  | revoke i fault =>
    obtain ⟨next, calledAs, lease, reply, -, rfl⟩ := revoke_spec h
    exact ht.execute hsound rfl rfl
  | conclude i =>
    obtain ⟨t, -, rfl⟩ := conclude_spec ht.sound h
    exact ht.keep hsound rfl rfl
  | stop =>
    obtain rfl := Option.some.inj h
    obtain ⟨stops, hstop, -⟩ := stop_spec s
    exact ht.keep hsound (by rw [hstop]) (by rw [hstop])
  | finish i fault =>
    obtain rfl := finish_spec ht.sound h
    exact ht.execute hsound rfl rfl

theorem Traced.master_iff {log : List (Tiding L)} (ht : s.Traced log) :
    s.role = .master ↔ (held log).isSome = true := by
  rw [← ht.sound.leased, ht.lease]

/-- What is known of a careful history: every call that waits was made by a master. -/
structure Vouched (s : ElectionNode L) (log : List (Tiding L)) : Prop where
  traced : s.Traced log
  honest : s.Honest
  masters : ∀ t ∈ s.transfers, t.calledAs = .master

theorem Honest.snoc {v : Verdict L} (hs : s.Honest) (hv : v.Honest) :
    ∀ v' ∈ s.verdicts ++ [v], v'.Honest := by
  intro v' hmem
  rcases List.mem_append.1 hmem with hmem | hmem
  · exact hs v' hmem
  · rw [List.mem_singleton.1 hmem]
    exact hv

theorem Vouched.keep {log log' : List (Tiding L)} (hs : s.Vouched log) (ht : s'.Traced log')
    (hverdicts : s'.verdicts = s.verdicts) (htransfers : s'.transfers = s.transfers) :
    s'.Vouched log' := by
  refine ⟨ht, ?_, ?_⟩
  · rw [Honest, hverdicts]
    exact hs.honest
  · rw [htransfers]
    exact hs.masters

theorem vouched_step {log : List (Tiding L)} (hs : s.Vouched log) (h : step s a = some s')
    (ha : s.Careful log a) : s'.Vouched (log ++ s.tidings a) := by
  have hsound := hs.traced.sound
  have ht := traced_step hs.traced h
  cases a with
  | beat =>
    have hb := beaten_beat hsound h
    exact hs.keep ht hb.verdicts hb.transfers
  | answer answers =>
    have hb := beaten_answer hsound h
    exact hs.keep ht hb.verdicts hb.transfers
  | forceElect target =>
    obtain rfl := Option.some.inj h
    have hf := forced s target
    generalize s.forceElect target = s' at hf ht
    cases hf with
    | refused hid v hv =>
      refine ⟨ht, hs.honest.snoc fun hr => ?_, hs.masters⟩
      rw [hv] at hr
      cases hr
    | unleased hid hlease =>
      have hheld := ha hid
      simp [← hs.traced.lease, hlease] at hheld
    | revoking hid hlease next hnext =>
      refine ⟨ht, hs.honest, ?_⟩
      rw [List.forall_mem_cons]
      exact ⟨hs.traced.master_iff.2 (ha hid), hs.masters⟩
  | revoke i fault =>
    obtain ⟨next, calledAs, lease, reply, hi, rfl⟩ := revoke_spec h
    refine ⟨ht, hs.honest, ?_⟩
    intro t hmem
    rcases List.mem_or_eq_of_mem_set hmem with hmem | rfl
    · exact hs.masters t hmem
    · exact hs.masters ⟨⟨.revokeLease, next, none⟩, calledAs, lease⟩ (List.mem_of_getElem? hi)
  | conclude i =>
    obtain ⟨t, hi, rfl⟩ := conclude_spec hsound h
    obtain ⟨⟨lease, hlease, hlog⟩, hheld⟩ := ha t hi
    refine ⟨ht, hs.honest.snoc fun _ => ?_,
      fun t hmem => hs.masters t (List.mem_of_mem_eraseIdx hmem)⟩
    refine ⟨hs.masters t (List.mem_of_getElem? hi), ⟨lease, hlease, ?_⟩, ?_⟩
    · exact (hs.traced.revoked lease).2 hlog
    · intro hrole
      have hsome := hs.traced.master_iff.1 hrole
      rw [hheld] at hsome
      cases hsome
  | stop =>
    obtain rfl := Option.some.inj h
    obtain ⟨stops, hstop, -⟩ := stop_spec s
    exact hs.keep ht (by rw [hstop]) (by rw [hstop])
  | finish i fault =>
    obtain rfl := finish_spec hsound h
    exact hs.keep ht rfl rfl

theorem careful_of_honest {log : List (Tiding L)} (ht : s.Traced log) (h : step s a = some s')
    (hh : s'.Honest) : s.Careful log a := by
  cases a with
  | forceElect target =>
    intro hid
    obtain rfl := Option.some.inj h
    have hf := forced s target
    generalize s.forceElect target = s' at hf hh
    cases hf with
    | refused hne v hv => exact absurd hid hne
    | unleased _ hlease =>
      have hmaster := (hh _ (List.mem_append_right _ List.mem_cons_self) rfl).1
      exact ht.master_iff.1 hmaster
    | revoking _ hlease next hnext =>
      rw [← ht.lease]
      exact hlease
  | conclude i =>
    obtain ⟨t, hi, rfl⟩ := conclude_spec ht.sound h
    intro t' hi'
    obtain rfl := Option.some.inj (hi.symm.trans hi')
    obtain ⟨-, ⟨lease, hlease, hrevoked⟩, hrole⟩ :=
      hh _ (List.mem_append_right _ List.mem_cons_self) rfl
    refine ⟨⟨lease, hlease, (ht.revoked lease).1 hrevoked⟩, ?_⟩
    cases hheld : held log with
    | none => rfl
    | some lease => exact absurd (ht.master_iff.2 (by simp [hheld])) hrole
  | beat => trivial
  | answer answers => trivial
  | revoke i fault => trivial
  | stop => trivial
  | finish i fault => trivial

/-- For every history of heartbeats, calls of `force_elect` and `stop`, and answers. -/
theorem transfer_honest_iff (clusterId grpcAddr : String) (scheduler : Option Scheduler)
    (acts : List (NodeAct L)) :
    Along step (fun _ _ s' => s'.Honest) (start clusterId grpcAddr scheduler) acts ↔
      Along (recorded tidings step) (fun p a _ => p.1.Careful p.2 a)
        (start clusterId grpcAddr scheduler, []) acts := by
  have hstart := traced_start (L := L) clusterId grpcAddr scheduler
  rw [← along_recorded tidings []]
  constructor
  · apply Along.imp (fun p => p.1.Traced p.2) ?_ hstart
    rintro ⟨s, log⟩ a ⟨s', log'⟩ h ht hh
    obtain ⟨hs', rfl⟩ := recorded_eq_some tidings h
    exact ⟨careful_of_honest ht hs' hh, traced_step ht hs'⟩
  · apply Along.imp (fun p => p.1.Vouched p.2)
    · rintro ⟨s, log⟩ a ⟨s', log'⟩ h hs ha
      obtain ⟨hs', rfl⟩ := recorded_eq_some tidings h
      have hv := vouched_step hs hs' ha
      exact ⟨hv.honest, hv⟩
    · exact ⟨hstart, by simp [Honest, start], by simp [start]⟩

/-- The calls of a node that wins, with the lease `0`, and whose refreshes fail. -/
def winning : Answers PyException AgentCall (AgentCall.Reply ℕ)
  | .acquire _ => .ok (true, 0)
  | .readMaster => .ok ""
  | .refreshLease => .error unavailable
  | .initDb => .ok ()
  | .upsertSelfCluster => .ok ()
  | .registerPeer _ _ => .ok ()
  | .startGrpc => .ok ()
  | .revokeLease => .ok ()
  | .writeRole _ => .ok ()

instance [DecidableEq L] (v : Verdict L) : Decidable v.Honest :=
  inferInstanceAs (Decidable (_ → _ ∧ (∃ lease ∈ v.lease, _) ∧ _))

instance [DecidableEq L] (s : ElectionNode L) : Decidable s.Honest :=
  inferInstanceAs (Decidable (∀ v ∈ s.verdicts, v.Honest))

instance [DecidableEq L] (s : ElectionNode L) (log : List (Tiding L)) :
    (a : NodeAct L) → Decidable (s.Careful log a)
  | .forceElect _ => inferInstanceAs (Decidable (_ → _))
  | .conclude i => inferInstanceAs (Decidable (∀ t ∈ s.transfers[i]?, (∃ lease ∈ t.lease, _) ∧ _))
  | .beat => inferInstanceAs (Decidable True)
  | .answer _ => inferInstanceAs (Decidable True)
  | .revoke _ _ => inferInstanceAs (Decidable True)
  | .stop => inferInstanceAs (Decidable True)
  | .finish _ _ => inferInstanceAs (Decidable True)

-- a master that hears of its revocation only after the next heartbeat has missed the lease
example : Along (recorded tidings step) (fun p a _ => p.1.Careful p.2 a) (start "a" "" none, [])
      [.beat, .answer winning, .answer winning, .forceElect "b", .revoke 0 none, .beat,
        .answer winning, .answer winning, .conclude 0] ∧
    ¬ Along step (fun _ _ s' => s'.verdicts.map Verdict.result ≠ [true]) (start "a" "" none)
      [.beat, .answer winning, .answer winning, .forceElect "b", .revoke 0 none, .beat,
        .answer winning, .answer winning, .conclude 0] := by
  decide +kernel

/-- A node that has lost its lease still passes the guard; a master whose revocation is lost on
its way is told that it went through; and one whose lease is revoked stays master. -/
theorem transfer_not_honest :
    ¬ Along step (fun _ _ s' => s'.Honest) (start "a" "" none)
        [.beat, .answer winning, .answer winning, .beat, .answer winning, .answer winning,
          .forceElect "b"] ∧
      ¬ Along step (fun _ _ s' => s'.Honest) (start "a" "" none)
        [.beat, .answer winning, .answer winning, .forceElect "b", .revoke 0 (some .request),
          .conclude 0] ∧
      ¬ Along step (fun _ _ s' => s'.Honest) (start "a" "" none)
        [.beat, .answer winning, .answer winning, .forceElect "b", .revoke 0 none,
          .conclude 0] := by
  decide +kernel

end ElectionNode

end NovaFederation
