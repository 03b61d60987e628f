import NovaFederation.Election

/-!
# What a waiting heartbeat does with its reply

A heartbeat waits at one of five places: for the refresh of its lease, for the acquisition, for
the name of the other master, or for the database inside one of the two callbacks. Each
predicate says how the rest of the heartbeat takes a reply, up to its next await or its end.
-/

namespace NovaFederation
open Coroutine
variable {L : Type} {α : Type} {s : CNFAgent L}

abbrev Continuation (L : Type) (c : AgentCall) (α : Type) :=
  Except PyException (c.Reply L) → Agent L α

/-- The rest of a callback: the scheduler is switched if the database answers. -/
structure Switching (role : NodeRole) (next : Continuation L (.writeRole role) α) : Prop where
  ok : ∀ s, ∃ x, settle s (next (.ok ())) = (s.switch role, .done x)
  error : ∀ e s, ∃ x, settle s (next (.error e)) = (s, .done x)

structure Refreshing (next : Continuation L .refreshLease α) : Prop where
  ok : ∀ ttl s, ∃ x, settle s (next (.ok ttl)) = (s, .done x)
  error : ∀ e s, ∃ next', Switching .worker next' ∧ settle s (next (.error e)) =
    ({ s with election := s.election.lose }, .waiting (.writeRole .worker) next')

structure Observing (next : Continuation L .readMaster α) : Prop where
  ok : ∀ masterId s, ∃ x, settle s (next (.ok masterId)) =
    ({ s with election := s.election.observe masterId }, .done x)
  error : ∀ e s, ∃ x, settle s (next (.error e)) = (s, .done x)

def CNFAgent.win (s : CNFAgent L) (lease : L) : CNFAgent L :=
  { s with election := { s.election with lease := some lease }.become }

structure Acquiring {clusterId : String} (next : Continuation L (.acquire clusterId) α) :
    Prop where
  won : ∀ lease (s : CNFAgent L), s.election.state.role = .worker → ∃ next',
    Switching .master next' ∧ settle s (next (.ok (true, lease))) =
      (s.win lease, .waiting (.writeRole .master) next')
  lost : ∀ lease (s : CNFAgent L), ∃ next', Observing next' ∧
    settle s (next (.ok (false, lease))) = (s, .waiting .readMaster next')
  error : ∀ e s, ∃ x, settle s (next (.error e)) = (s, .done x)

theorem settle_read (s : CNFAgent L) :
    settle s (read : Agent L (CNFAgent L)) = (s, .done (.ok s)) := rfl

theorem settle_master (hs : s.election.state.role = .master ∧ s.election.lease.isSome = true) :
    ∃ next, Refreshing next ∧
      settle s RaftElection.electionRound = (s, .waiting .refreshLease next) := by
  rw [RaftElection.electionRound, settle_tryCatch, RaftElection.tryAcquireMaster, settle_bind,
    settle_read]
  dsimp only
  rw [if_pos hs]
  refine ⟨_, ⟨?_, ?_⟩, rfl⟩
  · exact fun ttl s => ⟨_, rfl⟩
  · intro e s
    refine ⟨_, ⟨?_, ?_⟩, rfl⟩
    · exact fun s => ⟨_, rfl⟩
    · exact fun e s => ⟨_, rfl⟩

theorem settle_worker (hs : ¬ (s.election.state.role = .master ∧ s.election.lease.isSome = true)) :
    ∃ next : Continuation L (.acquire s.election.clusterId) Unit, Acquiring next ∧
      settle s RaftElection.electionRound =
        (s, .waiting (.acquire s.election.clusterId) next) := by
  rw [RaftElection.electionRound, settle_tryCatch, RaftElection.tryAcquireMaster, settle_bind,
    settle_read]
  dsimp only
  rw [if_neg hs]
  refine ⟨_, ⟨?_, ?_, ?_⟩, rfl⟩
  · rintro lease ⟨⟨clusterId, grpcAddr, ⟨_, masterId, term⟩, _, running, loopTask⟩, scheduler, up⟩
      ⟨rfl⟩
    refine ⟨_, ⟨?_, ?_⟩, rfl⟩
    · exact fun s => ⟨_, rfl⟩
    · exact fun e s => ⟨_, rfl⟩
  · intro lease s
    refine ⟨_, ⟨?_, ?_⟩, rfl⟩
    · exact fun masterId s => ⟨_, rfl⟩
    · exact fun e s => ⟨_, rfl⟩
  · exact fun e s => ⟨_, rfl⟩

/-! ### Where a heartbeat waits -/

abbrev CNFAgent.role (s : CNFAgent L) : NodeRole := s.election.state.role

theorem RaftElection.observe_grip (e : RaftElection L) (masterId : String) :
    (e.observe masterId).state.role = e.state.role ∧ (e.observe masterId).lease = e.lease ∧
      (e.observe masterId).clusterId = e.clusterId := by
  unfold RaftElection.observe
  split_ifs <;> exact ⟨rfl, rfl, rfl⟩

namespace CNFAgent
variable {s : CNFAgent L} {c : AgentCall} {next : Continuation L c Unit}

def Leased (s : CNFAgent L) : Prop := s.role = .master → s.election.lease.isSome = true

def At (s : CNFAgent L) : (c : AgentCall) → Continuation L c Unit → Prop
  | .refreshLease, next => s.role = .master ∧ Refreshing next
  | .acquire _, next => s.role = .worker ∧ Acquiring next
  | .readMaster, next => Observing next
  | .writeRole role, next => s.role = role ∧ Switching role next
  | _, _ => False

/-- What an answer makes of a heartbeat outside its callbacks: it ends with the role unchanged,
it reads the name of the master, or it changes the role and calls back. -/
inductive Replied (s : CNFAgent L) : CNFAgent L × Paused (CNFAgent L) PyException AgentCall
    (AgentCall.Reply L) Unit → Prop
  | ended (s' : CNFAgent L) (x : Except PyException Unit) (hrole : s'.role = s.role)
    (hlease : s'.election.lease = s.election.lease) (hscheduler : s'.scheduler = s.scheduler) :
    Replied s (s', .done x)
  | reads (next : Continuation L .readMaster Unit) (hnext : Observing next) :
    Replied s (s, .waiting .readMaster next)
  | won (lease : L) (next : Continuation L (.writeRole .master) Unit)
    (hnext : Switching .master next) :
    Replied s (s.win lease, .waiting (.writeRole .master) next)
  | lost (next : Continuation L (.writeRole .worker) Unit) (hnext : Switching .worker next) :
    Replied s ({ s with election := s.election.lose }, .waiting (.writeRole .worker) next)

theorem At.replied (hat : s.At c next) (hc : ∀ role, c ≠ .writeRole role)
    (r : Except PyException (c.Reply L)) : Replied s (settle s (next r)) := by
  cases c with
  | refreshLease =>
    obtain ⟨-, hnext⟩ := hat
    rcases r with e | ttl
    · obtain ⟨next', hsw, heq⟩ := hnext.error e s
      rw [heq]
      exact .lost next' hsw
    · obtain ⟨x, heq⟩ := hnext.ok ttl s
      rw [heq]
      exact .ended s x rfl rfl rfl
  | acquire clusterId =>
    obtain ⟨hrole, hnext⟩ := hat
    rcases r with e | ⟨_ | _, lease⟩
    · obtain ⟨x, heq⟩ := hnext.error e s
      rw [heq]
      exact .ended s x rfl rfl rfl
    · obtain ⟨next', hobs, heq⟩ := hnext.lost lease s
      rw [heq]
      exact .reads next' hobs
    · obtain ⟨next', hsw, heq⟩ := hnext.won lease s hrole
      rw [heq]
      exact .won lease next' hsw
  | readMaster =>
    rcases r with e | masterId
    · obtain ⟨x, heq⟩ := hat.error e s
      rw [heq]
      exact .ended s x rfl rfl rfl
    · obtain ⟨x, heq⟩ := hat.ok masterId s
      obtain ⟨hrole, hlease, -⟩ := s.election.observe_grip masterId
      rw [heq]
      exact .ended _ x hrole hlease rfl
  | writeRole role => exact absurd rfl (hc role)
  | initDb => exact hat.elim
  | upsertSelfCluster => exact hat.elim
  | registerPeer clusterId grpcAddr => exact hat.elim
  | startGrpc => exact hat.elim
  | revokeLease => exact hat.elim

theorem at_beat (hs : s.Leased) : ∃ c next, s.At c next ∧
    settle s RaftElection.electionRound = (s, .waiting c next) := by
  by_cases hm : s.role = .master ∧ s.election.lease.isSome = true
  · obtain ⟨next, hnext, heq⟩ := settle_master hm
    exact ⟨_, next, ⟨hm.1, hnext⟩, heq⟩
  · obtain ⟨next, hnext, heq⟩ := settle_worker hm
    have hw : s.role = .worker := by
      cases hrole : s.role with
      | worker => rfl
      | master => exact absurd ⟨hrole, hs hrole⟩ hm
    exact ⟨_, next, ⟨hw, hnext⟩, heq⟩

end CNFAgent

/-! ### Requests that revoke the lease -/

/-- What a task that ends in `revokeLease` comes to: nothing is left to do once the revocation
has been answered. -/
inductive Revoking : Paused (CNFAgent L) PyException AgentCall (AgentCall.Reply L) α → Prop
  | done (x) : Revoking (.done x)
  | waiting (next) (hnext : ∀ r s, ∃ x, settle s (next r) = (s, .done x)) :
    Revoking (.waiting .revokeLease next)

theorem settle_revokeLease (s : CNFAgent L) :
    (settle s RaftElection.revokeLease).1 = s ∧
      Revoking (settle s (RaftElection.revokeLease : Agent L Unit)).2 := by
  rw [RaftElection.revokeLease, settle_bind, settle_read]
  dsimp only
  split_ifs
  · refine ⟨rfl, .waiting _ ?_⟩
    rintro (e | _) s
    · exact ⟨_, rfl⟩
    · exact ⟨_, rfl⟩
  · exact ⟨rfl, .done _⟩

/-- The rest of such a task may compute its result from that of the revocation. -/
theorem Revoking.map {β : Type} {p : Agent L α} (hp : (settle s p).1 = s ∧ Revoking (settle s p).2)
    (f : α → β) :
    (settle s (p >>= fun a => pure (f a))).1 = s ∧
      Revoking (settle s (p >>= fun a => pure (f a))).2 := by
  obtain ⟨hs, hr⟩ := hp
  rw [settle_bind]
  rcases hq : settle s p with ⟨s', q⟩
  rw [hq] at hs hr
  obtain rfl : s' = s := hs
  cases hr with
  | done x =>
    cases x with
    | error e => exact ⟨rfl, .done _⟩
    | ok a => exact ⟨rfl, .done _⟩
  | waiting next hnext =>
    refine ⟨rfl, .waiting _ fun r t => ?_⟩
    obtain ⟨x, hx⟩ := hnext r t
    rw [settle_bind, hx]
    cases x with
    | error e => exact ⟨_, rfl⟩
    | ok a => exact ⟨_, rfl⟩

theorem settle_forceElect (s : CNFAgent L) (target : String) :
    (settle s (RaftElection.forceElect target)).1 = s ∧
      Revoking (settle s (RaftElection.forceElect target : Agent L Bool)).2 := by
  rw [RaftElection.forceElect, settle_bind, settle_read]
  dsimp only
  split_ifs
  · exact ⟨rfl, .done _⟩
  · exact Revoking.map (settle_revokeLease s) fun _ => true

theorem settle_stop (s : CNFAgent L) :
    (settle s RaftElection.stop).1 = { s with election := { s.election with running := false } } ∧
      Revoking (settle s (RaftElection.stop : Agent L Unit)).2 :=
  settle_revokeLease { s with election := { s.election with running := false } }

end NovaFederation
