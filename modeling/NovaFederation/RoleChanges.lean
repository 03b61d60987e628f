import NovaFederation.Startup

/-!
# Heartbeats with a database that fails

A callback writes the role to the database before it switches the scheduler, and the role has
been changed before the callback runs. When the write raises, the scheduler stays as it was:
active on a worker after a loss, inactive on a master after a win. No later heartbeat of the
same role calls back again.
-/

namespace NovaFederation
open Coroutine Schedule
variable {L : Type}

/-- What the world answers during one heartbeat. -/
structure Heartbeat (L : Type) where
  answers : AgentAnswers L
  reachable : Bool
  database : ∀ role, (answers (.writeRole role)).isOk = reachable := by exact fun _ => rfl

namespace CNFAgent
variable (s : CNFAgent L)

def heartbeat (b : Heartbeat L) : CNFAgent L :=
  (exec (fun _ => b.answers) RaftElection.electionRound s []).2.1

def step (b : Heartbeat L) : Option (CNFAgent L) := some (s.heartbeat b)

def active : Bool := s.scheduler.any (·.isMaster)

/-- An agent with a scheduler, which is inactive on a worker. -/
structure Started : Prop where
  scheduler : s.scheduler.isSome = true
  leased : s.Leased
  worker : s.role = .worker → s.active = false

/-- After a heartbeat a worker has an inactive scheduler, and a master has an active one if the
database was reachable. -/
def Robust (_ : CNFAgent L) (b : Heartbeat L) (s' : CNFAgent L) : Prop :=
  (s'.role = .worker → s'.active = false) ∧
    (s'.role = .master → b.reachable = true → s'.active = true)

/-- A master with an active scheduler does not lose its lease while the database is down, and a
master with an inactive one does not keep its lease while the database is up. -/
def Unharmed (b : Heartbeat L) : Prop :=
  s.role = .master → if (b.answers .refreshLease).isOk = true
    then b.reachable = true → s.active = true
    else s.active = true → b.reachable = true

end CNFAgent

/-! ### One heartbeat -/

namespace CNFAgent
variable {s : CNFAgent L} {b : Heartbeat L}

theorem exec_done {p : Agent L Unit} {s' : CNFAgent L} {x : Except PyException Unit}
    (hp : settle s p = (s', .done x)) (h : History PyException AgentCall (AgentCall.Reply L)) :
    (exec (fun _ => b.answers) p s h).2.1 = s' := by
  rw [exec_settle, hp]

theorem exec_waiting {p : Agent L Unit} {s' : CNFAgent L} {c : AgentCall}
    {next : Continuation L c Unit} (hp : settle s p = (s', .waiting c next))
    (h : History PyException AgentCall (AgentCall.Reply L)) :
    (exec (fun _ => b.answers) p s h).2.1 =
      (exec (fun _ => b.answers) (next (b.answers c)) s' (h ++ [⟨c, b.answers c⟩])).2.1 := by
  rw [exec_settle, hp]

theorem exec_switching {role : NodeRole} {next : Continuation L (.writeRole role) Unit}
    (hnext : Switching role next) (h : History PyException AgentCall (AgentCall.Reply L)) :
    (exec (fun _ => b.answers) (next (b.answers (.writeRole role))) s h).2.1 =
      if b.reachable = true then s.switch role else s := by
  rw [← b.database role]
  cases b.answers (.writeRole role) with
  | error e =>
    obtain ⟨x, hx⟩ := hnext.error e s
    exact exec_done hx h
  | ok v =>
    obtain ⟨x, hx⟩ := hnext.ok s
    exact exec_done hx h

theorem heartbeat_of_refreshed (hs : s.role = .master ∧ s.election.lease.isSome = true)
    (hr : (b.answers .refreshLease).isOk = true) : s.heartbeat b = s := by
  obtain ⟨next, hnext, hq⟩ := settle_master hs
  unfold heartbeat
  rw [exec_waiting hq]
  cases hv : b.answers .refreshLease with
  | error e => simp [hv, Except.isOk, Except.toBool] at hr
  | ok ttl =>
    obtain ⟨x, hx⟩ := hnext.ok ttl s
    exact exec_done hx _

theorem heartbeat_of_lost (hs : s.role = .master ∧ s.election.lease.isSome = true)
    (hr : (b.answers .refreshLease).isOk = false) :
    s.heartbeat b = if b.reachable = true then
      { s with election := s.election.lose : CNFAgent L }.switch .worker
      else { s with election := s.election.lose } := by
  obtain ⟨next, hnext, hq⟩ := settle_master hs
  unfold heartbeat
  rw [exec_waiting hq]
  cases hv : b.answers .refreshLease with
  | error e =>
    obtain ⟨next', hsw, hx⟩ := hnext.error e s
    rw [exec_waiting hx]
    exact exec_switching hsw _
  | ok ttl => simp [hv, Except.isOk, Except.toBool] at hr

theorem heartbeat_of_worker (hs : s.role = .worker) :
    ((s.heartbeat b).role = .worker ∧ (s.heartbeat b).scheduler = s.scheduler) ∨
    ∃ lease, s.heartbeat b =
      if b.reachable = true then (s.win lease).switch .master else s.win lease := by
  have hm : ¬ (s.role = .master ∧ s.election.lease.isSome = true) := by simp [hs]
  obtain ⟨next, hnext, hq⟩ := settle_worker hm
  unfold heartbeat
  rw [exec_waiting hq]
  rcases b.answers (.acquire s.election.clusterId) with e | ⟨_ | _, lease⟩
  · obtain ⟨x, hx⟩ := hnext.error e s
    rw [exec_done hx]
    exact .inl ⟨hs, rfl⟩
  · obtain ⟨next', hobs, hx⟩ := hnext.lost lease s
    rw [exec_waiting hx]
    rcases b.answers .readMaster with e | masterId
    · obtain ⟨x, hx⟩ := hobs.error e s
      rw [exec_done hx]
      exact .inl ⟨hs, rfl⟩
    · obtain ⟨x, hx⟩ := hobs.ok masterId s
      rw [exec_done hx]
      exact .inl ⟨(s.election.observe_grip masterId).1.trans hs, rfl⟩
  · obtain ⟨next', hsw, hx⟩ := hnext.won lease s hs
    rw [exec_waiting hx]
    exact .inr ⟨lease, exec_switching hsw _⟩

theorem active_switch (hs : s.scheduler.isSome = true) (role : NodeRole) :
    (s.switch role).active = decide (role = .master) := by
  obtain ⟨scheduler, hscheduler⟩ := Option.isSome_iff_exists.1 hs
  simp [active, switch, hscheduler, Scheduler.setMaster]

theorem isSome_switch (role : NodeRole) :
    (s.switch role).scheduler.isSome = s.scheduler.isSome := Option.isSome_map

theorem kept_heartbeat (hs : s.Started) :
    (s.heartbeat b).scheduler.isSome = true ∧ (s.heartbeat b).Leased := by
  cases hrole : s.role with
  | worker =>
    rcases heartbeat_of_worker (b := b) hrole with ⟨hrole', hscheduler⟩ | ⟨lease, heq⟩
    · refine ⟨hscheduler ▸ hs.scheduler, fun hm => ?_⟩
      rw [hrole'] at hm
      cases hm
    · rw [heq]
      split_ifs
      · exact ⟨(isSome_switch _).trans hs.scheduler, fun _ => rfl⟩
      · exact ⟨hs.scheduler, fun _ => rfl⟩
  | master =>
    have hm : s.role = .master ∧ s.election.lease.isSome = true := ⟨hrole, hs.leased hrole⟩
    cases hr : (b.answers .refreshLease).isOk with
    | true =>
      rw [heartbeat_of_refreshed hm hr]
      exact ⟨hs.scheduler, hs.leased⟩
    | false =>
      rw [heartbeat_of_lost hm hr]
      split_ifs
      · exact ⟨(isSome_switch _).trans hs.scheduler, nofun⟩
      · exact ⟨hs.scheduler, nofun⟩

theorem started_heartbeat (hs : s.Started) (hr : s.Robust b (s.heartbeat b)) :
    (s.heartbeat b).Started := by
  obtain ⟨hscheduler, hleased⟩ := kept_heartbeat (b := b) hs
  exact ⟨hscheduler, hleased, hr.1⟩

theorem robust_iff (hs : s.Started) : s.Robust b (s.heartbeat b) ↔ s.Unharmed b := by
  cases hrole : s.role with
  | worker =>
    refine iff_of_true ?_ (by simp [Unharmed, hrole])
    rcases heartbeat_of_worker (b := b) hrole with ⟨hrole', hscheduler⟩ | ⟨lease, heq⟩
    · refine ⟨fun _ => ?_, fun hm => ?_⟩
      · unfold active
        rw [hscheduler]
        exact hs.worker hrole
      · rw [hrole'] at hm
        cases hm
    · rw [heq]
      by_cases hb : b.reachable = true
      · rw [if_pos hb]
        exact ⟨nofun, fun _ _ => active_switch (s := s.win lease) hs.scheduler .master⟩
      · rw [if_neg hb]
        exact ⟨nofun, fun _ h => absurd h hb⟩
  | master =>
    have hm : s.role = .master ∧ s.election.lease.isSome = true := ⟨hrole, hs.leased hrole⟩
    cases hr : (b.answers .refreshLease).isOk with
    | true =>
      rw [heartbeat_of_refreshed hm hr]
      simp [Robust, Unharmed, hrole, hr]
    | false =>
      rw [heartbeat_of_lost hm hr]
      have hu : s.Unharmed b ↔ (s.active = true → b.reachable = true) := by
        simp [Unharmed, hrole, hr]
      rw [hu]
      by_cases hb : b.reachable = true
      · rw [if_pos hb]
        refine iff_of_true ⟨fun _ => ?_, nofun⟩ fun _ => hb
        exact active_switch (s := { s with election := s.election.lose }) hs.scheduler .worker
      · rw [if_neg hb]
        constructor
        · rintro ⟨hw, -⟩ hactive
          exact absurd hactive (Bool.eq_false_iff.1 (hw rfl))
        · intro hactive
          exact ⟨fun _ => Bool.eq_false_iff.2 fun h => hb (hactive h), nofun⟩

end CNFAgent

theorem Startup.started_of_opens {l : Startup L} {clusterId grpcAddr : String}
    (hs : l.Sound clusterId grpcAddr) {answers : AgentAnswers L}
    (ho : l.opens (.main answers) = true) : (l.resume answers).state.Started := by
  obtain ⟨hret, hstate⟩ := resume_of_opens hs ho
  have hs' := (resume_cases hs answers).1
  refine ⟨hs'.made hret, hs'.leased, fun _ => ?_⟩
  rw [hstate]
  rfl

open CNFAgent in
/-- Role changes survive a failing database exactly as long as no callback that matters meets it
while it is down. -/
theorem role_changes_robust_iff (s : CNFAgent L) (hs : s.Started) (beats : List (Heartbeat L)) :
    Along step Robust s beats ↔ Along step (fun s b _ => s.Unharmed b) s beats := by
  constructor
  · intro hr
    refine hr.imp Started ?_ hs
    rintro s b _ ⟨rfl⟩ hs hr
    exact ⟨(robust_iff hs).1 hr, started_heartbeat hs hr⟩
  · intro hu
    refine hu.imp Started ?_ hs
    rintro s b _ ⟨rfl⟩ hs hu
    have hr := (robust_iff hs).2 hu
    exact ⟨hr, started_heartbeat hs hr⟩

/-! ### Schedules -/

instance (s : CNFAgent L) (b : Heartbeat L) (s' : CNFAgent L) : Decidable (s.Robust b s') :=
  inferInstanceAs (Decidable ((s'.role = .worker → s'.active = false) ∧
    (s'.role = .master → b.reachable = true → s'.active = true)))

instance (s : CNFAgent L) (b : Heartbeat L) : Decidable (s.Unharmed b) :=
  inferInstanceAs (Decidable (s.role = .master → if (b.answers .refreshLease).isOk = true
    then b.reachable = true → s.active = true
    else s.active = true → b.reachable = true))

def worker : CNFAgent Unit where
  election :=
    { clusterId := "iad", grpcAddr := "10.0.0.1:50051", running := true, loopTask := true }
  scheduler := some {}
  running := true

theorem started_worker : worker.Started := ⟨rfl, nofun, fun _ => rfl⟩

def vacant : Heartbeat Unit where
  answers := vacancy
  reachable := true

def etcdDown : Heartbeat Unit where
  answers
    | .writeRole _ => .ok ()
    | _ => .error unavailable
  reachable := true

def databaseDown : Heartbeat Unit where
  answers
    | .writeRole _ => .error unavailable
    | c => vacancy c
  reachable := false

def allDown : Heartbeat Unit where
  answers _ := .error unavailable
  reachable := false

theorem role_changes_robust_in_outage : Along CNFAgent.step CNFAgent.Robust worker
    [vacant, vacant, etcdDown, allDown, vacant, databaseDown] :=
  (role_changes_robust_iff worker started_worker _).2 (by decide +kernel)

/-- A master that loses its lease while the database is down as well keeps its scheduler active. -/
theorem not_role_changes_robust :
    ¬ Along CNFAgent.step CNFAgent.Robust worker [vacant, allDown] := by
  decide +kernel

/-- A worker that wins while the database is down never gets an active scheduler. -/
example : ¬ Along CNFAgent.step CNFAgent.Robust worker [databaseDown, vacant] := by
  decide +kernel

end NovaFederation
