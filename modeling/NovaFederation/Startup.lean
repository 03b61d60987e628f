import NovaFederation.Heartbeat
import NovaFederation.Schedule

/-!
# Start-up and the election loop that it launches

The agent makes its scheduler at the very end of `start`, but the election loop runs from the
middle of it. A callback that finds no scheduler switches nothing, and it is not repeated: an
agent that has become master before its scheduler is there never gets an active one from it.
-/

namespace NovaFederation
open Coroutine Schedule
variable {L : Type}

/-- `start` of an agent as the main task and a heartbeat of its election loop as the peer. -/
abbrev Startup (L : Type) :=
  Loop (CNFAgent L) PyException AgentCall (AgentCall.Reply L) Unit Unit

abbrev AgentAnswers (L : Type) := Answers PyException AgentCall (AgentCall.Reply L)

inductive StartupAct (L : Type)
  | main (answers : AgentAnswers L)
  | beat
  | heartbeat (answers : AgentAnswers L)

/-- The database write of a callback returns, if this action answers one. -/
def StartupAct.writes (role : NodeRole) : StartupAct L → Bool
  | .heartbeat answers => (answers (.writeRole role)).isOk
  | _ => true

/-- The scheduler is there, and it is active exactly on the master. -/
def CNFAgent.Synced (s : CNFAgent L) : Prop :=
  ∃ scheduler ∈ s.scheduler, (scheduler.isMaster = true ↔ s.role = .master)

namespace Startup
variable (l : Startup L)

def idle : Bool :=
  match l.peer with
  | some (.waiting _ _) => false
  | _ => true

def callback : Option NodeRole :=
  match l.peer with
  | some (.waiting (.writeRole role) _) => some role
  | _ => none

def returned : Bool :=
  match l.main with
  | .done (.ok _) => true
  | _ => false

def step : StartupAct L → Option (Startup L)
  | .main answers => some (l.resume answers)
  | .beat =>
    if l.state.election.loopTask = true ∧ l.idle = true then
      some (l.call RaftElection.electionRound)
    else none
  | .heartbeat answers => some (l.resumePeer answers)

def start (clusterId grpcAddr : String) : Startup L :=
  Loop.start { election := { clusterId, grpcAddr } } (CNFAgent.start clusterId grpcAddr)

def opens : StartupAct L → Bool
  | .main answers =>
    match l.main with
    | .waiting .startGrpc _ => (answers .startGrpc).isOk
    | _ => false
  | _ => false

/-- With a scheduler in place, the database answers the callbacks. -/
def Answered (a : StartupAct L) : Prop :=
  l.state.scheduler.isSome = true → ∀ role ∈ l.callback, a.writes role = true

/-- Once `start` has returned and while no callback is in progress, the scheduler is active
exactly on the master. -/
def InSync : Prop := l.returned = true → l.callback = none → l.state.Synced

/-- The scheduler is not made on a master whose callback is over. -/
def InTime (a : StartupAct L) : Prop :=
  l.opens a = true → l.state.role = .master → l.callback.isSome = true

end Startup

/-! ### Where `start` waits -/

/-- The rest of `start` at an await: an answer changes the state by `f` and leads to `Q`, and an
exception escapes. -/
structure Leading {c : AgentCall} (f : CNFAgent L → CNFAgent L)
    (Q : Paused (CNFAgent L) PyException AgentCall (AgentCall.Reply L) Unit → Prop)
    (next : Continuation L c Unit) : Prop where
  ok : ∀ v s, ∃ p, Q p ∧ settle s (next (.ok v)) = (f s, p)
  error : ∀ e s, settle s (next (.error e)) = (s, .done (.error e))

def Opening (p : Paused (CNFAgent L) PyException AgentCall (AgentCall.Reply L) Unit) : Prop :=
  ∃ next, p = .waiting .startGrpc next ∧
    Leading (fun s => { s with scheduler := some {}, running := true }) (· = .done (.ok ())) next

def Joining (p : Paused (CNFAgent L) PyException AgentCall (AgentCall.Reply L) Unit) : Prop :=
  ∃ clusterId grpcAddr next, p = .waiting (.registerPeer clusterId grpcAddr) next ∧
    Leading (fun s => { s with election := { s.election with loopTask := true } }) Opening next

def Upserting (clusterId grpcAddr : String)
    (p : Paused (CNFAgent L) PyException AgentCall (AgentCall.Reply L) Unit) : Prop :=
  ∃ next, p = .waiting .upsertSelfCluster next ∧
    Leading (fun s => { s with election := { clusterId, grpcAddr, running := true } }) Joining next

def Initializing (clusterId grpcAddr : String)
    (p : Paused (CNFAgent L) PyException AgentCall (AgentCall.Reply L) Unit) : Prop :=
  ∃ next, p = .waiting .initDb next ∧ Leading id (Upserting clusterId grpcAddr) next

theorem settle_start (s : CNFAgent L) (clusterId grpcAddr : String) : ∃ p,
    Initializing clusterId grpcAddr p ∧ settle s (CNFAgent.start clusterId grpcAddr) = (s, p) := by
  refine ⟨_, ⟨_, rfl, ?_, fun _ _ => rfl⟩, rfl⟩
  refine fun _ s => ⟨_, ⟨_, rfl, ?_, fun _ _ => rfl⟩, rfl⟩
  refine fun _ s => ⟨_, ⟨_, _, _, rfl, ?_, fun _ _ => rfl⟩, rfl⟩
  refine fun _ s => ⟨_, ⟨_, rfl, ?_, fun _ _ => rfl⟩, rfl⟩
  exact fun _ s => ⟨_, rfl, rfl⟩

namespace Startup
variable {l l' : Startup L} {a : StartupAct L} {clusterId grpcAddr : String}

/-- How far `start` has come. The election loop is not there before the peer is registered. -/
inductive Launched (clusterId grpcAddr : String) (l : Startup L) : Prop
  | early (hmain : Initializing clusterId grpcAddr l.main ∨ Upserting clusterId grpcAddr l.main ∨
      Joining l.main) (hpeer : l.peer = none) (hloop : l.state.election.loopTask = false)
    (hscheduler : l.state.scheduler = none)
  | opening (hmain : Opening l.main) (hscheduler : l.state.scheduler = none)
  | ended (hmain : ∃ r, l.main = .done r) (hscheduler : l.state.scheduler.isSome = l.returned)

structure Sound (clusterId grpcAddr : String) (l : Startup L) : Prop where
  main : Launched clusterId grpcAddr l
  leased : l.state.Leased
  heartbeat : ∀ c next, l.peer = some (.waiting c next) → l.state.At c next

theorem resume_waiting {c : AgentCall} {next : Continuation L c Unit}
    (hl : l.main = .waiting c next) (answers : AgentAnswers L) :
    l.resume answers = { l with
      state := (settle l.state (next (answers c))).1
      history := l.history ++ [⟨c, answers c⟩]
      main := (settle l.state (next (answers c))).2 } := by
  unfold Loop.resume
  rw [hl]

theorem resumePeer_waiting {c : AgentCall} {next : Continuation L c Unit}
    (hl : l.peer = some (.waiting c next)) (answers : AgentAnswers L) :
    l.resumePeer answers = { l with
      state := (settle l.state (next (answers c))).1
      history := l.history ++ [⟨c, answers c⟩]
      peer := some (settle l.state (next (answers c))).2 } := by
  unfold Loop.resumePeer
  rw [hl]

theorem not_returned_of_error {e : PyException} (hl : l.main = .done (.error e)) :
    l.returned = false := by
  unfold returned
  rw [hl]

theorem returned_of_ok (hl : l.main = .done (.ok ())) : l.returned = true := by
  unfold returned
  rw [hl]

theorem sound_start (clusterId grpcAddr : String) :
    (start clusterId grpcAddr : Startup L).Sound clusterId grpcAddr := by
  obtain ⟨p, hp, heq⟩ := settle_start (L := L) { election := { clusterId, grpcAddr } }
    clusterId grpcAddr
  have hl : (start clusterId grpcAddr : Startup L) =
      ⟨{ election := { clusterId, grpcAddr } }, [], p, none⟩ := by
    unfold start Loop.start
    rw [heq]
  rw [hl]
  exact ⟨.early (.inl hp) rfl rfl rfl, nofun, nofun⟩

theorem resume_peer (l : Startup L) (answers : AgentAnswers L) :
    (l.resume answers).peer = l.peer := by
  unfold Loop.resume
  split <;> rfl

theorem resume_leading {c : AgentCall} {next : Continuation L c Unit}
    {f : CNFAgent L → CNFAgent L}
    {Q : Paused (CNFAgent L) PyException AgentCall (AgentCall.Reply L) Unit → Prop}
    (hn : Leading f Q next) (hl : l.main = .waiting c next) (answers : AgentAnswers L) :
    (∃ e, answers c = .error e ∧ (l.resume answers).main = .done (.error e) ∧
      (l.resume answers).state = l.state) ∨
    (∃ v, answers c = .ok v ∧ Q (l.resume answers).main ∧
      (l.resume answers).state = f l.state) := by
  rw [resume_waiting hl]
  dsimp only
  cases hr : answers c with
  | error e =>
    rw [hn.error]
    exact .inl ⟨e, rfl, rfl, rfl⟩
  | ok v =>
    obtain ⟨p, hp, heq⟩ := hn.ok v l.state
    rw [heq]
    exact .inr ⟨v, rfl, hp, rfl⟩

theorem Sound.failed (hs : l.Sound clusterId grpcAddr) (hl : l.state.scheduler = none)
    {e : PyException} (hmain : l'.main = .done (.error e)) (hstate : l'.state = l.state)
    (hpeer : l'.peer = l.peer) : l'.Sound clusterId grpcAddr ∧ l'.returned = false := by
  have hret := not_returned_of_error hmain
  refine ⟨⟨.ended ⟨_, hmain⟩ ?_, ?_, ?_⟩, hret⟩
  · rw [hret, hstate, hl]
    rfl
  · rw [hstate]
    exact hs.leased
  · rw [hstate, hpeer]
    exact hs.heartbeat

theorem Sound.answered (hs : l.Sound clusterId grpcAddr) (hscheduler : l.state.scheduler = none)
    {c : AgentCall} {next : Continuation L c Unit} {f : CNFAgent L → CNFAgent L}
    {Q : Paused (CNFAgent L) PyException AgentCall (AgentCall.Reply L) Unit → Prop}
    (hn : Leading f Q next) (hl : l.main = .waiting c next) (answers : AgentAnswers L) :
    (Startup.Sound clusterId grpcAddr (l.resume answers) ∧
      Startup.returned (l.resume answers) = false) ∨
    (∃ v, answers c = .ok v ∧ Q (l.resume answers).main ∧
      (l.resume answers).state = f l.state) := by
  rcases resume_leading hn hl answers with ⟨e, -, hmain, hstate⟩ | hok
  · exact .inl (hs.failed hscheduler hmain hstate (resume_peer l answers))
  · exact .inr hok

theorem Sound.early (hleased : l.state.Leased) (hpeer : l.peer = none)
    (hscheduler : l.state.scheduler = none)
    (hmain : (Upserting clusterId grpcAddr l.main ∨ Joining l.main) ∧
      l.state.election.loopTask = false ∨ Opening l.main) :
    l.Sound clusterId grpcAddr ∧ l.returned = false := by
  refine ⟨⟨?_, hleased, ?_⟩, ?_⟩
  · rcases hmain with ⟨hmain, hloop⟩ | hmain
    · exact .early (.inr hmain) hpeer hloop hscheduler
    · exact .opening hmain hscheduler
  · rw [hpeer]
    exact nofun
  · rcases hmain with ⟨⟨_, hl, -⟩ | ⟨_, _, _, hl, -⟩, -⟩ | ⟨_, hl, -⟩ <;> simp only [returned, hl]

theorem resume_cases (hs : l.Sound clusterId grpcAddr) (answers : AgentAnswers L) :
    Startup.Sound clusterId grpcAddr (l.resume answers) ∧
      (Startup.returned (l.resume answers) = false ∨ l.resume answers = l ∨
        l.opens (.main answers) = true ∧
          (l.resume answers).state = { l.state with scheduler := some {}, running := true }) := by
  have hpeer := resume_peer l answers
  cases hs.main with
  | early hmain hnone hloop hscheduler =>
    have hnone' := hpeer.trans hnone
    rcases hmain with ⟨next, hl, hn⟩ | ⟨next, hl, hn⟩ | ⟨_, _, next, hl, hn⟩
    · rcases hs.answered hscheduler hn hl answers with ⟨hs', hr⟩ | ⟨v, -, hmain, hstate⟩
      · exact ⟨hs', .inl hr⟩
      · obtain ⟨hs', hr⟩ := Sound.early (hstate ▸ hs.leased) hnone' (hstate ▸ hscheduler)
          (.inl ⟨.inl hmain, hstate ▸ hloop⟩)
        exact ⟨hs', .inl hr⟩
    · rcases hs.answered hscheduler hn hl answers with ⟨hs', hr⟩ | ⟨v, -, hmain, hstate⟩
      · exact ⟨hs', .inl hr⟩
      · obtain ⟨hs', hr⟩ := Sound.early (by rw [hstate]; exact nofun) hnone'
          (by rw [hstate]; exact hscheduler) (.inl ⟨.inr hmain, by rw [hstate]⟩)
        exact ⟨hs', .inl hr⟩
    · rcases hs.answered hscheduler hn hl answers with ⟨hs', hr⟩ | ⟨v, -, hmain, hstate⟩
      · exact ⟨hs', .inl hr⟩
      · obtain ⟨hs', hr⟩ := Sound.early (by rw [hstate]; exact hs.leased) hnone'
          (by rw [hstate]; exact hscheduler) (.inr hmain)
        exact ⟨hs', .inl hr⟩
  | opening hmain hscheduler =>
    obtain ⟨next, hl, hn⟩ := hmain
    rcases hs.answered hscheduler hn hl answers with ⟨hs', hr⟩ | ⟨v, hv, hmain, hstate⟩
    · exact ⟨hs', .inl hr⟩
    · refine ⟨⟨.ended ⟨_, hmain⟩ ?_, ?_, ?_⟩, .inr (.inr ⟨?_, hstate⟩)⟩
      · rw [returned_of_ok hmain, hstate]
        rfl
      · rw [hstate]
        exact hs.leased
      · intro c next' hc
        have hat := hs.heartbeat c next' (hpeer ▸ hc)
        rw [hstate]
        cases c <;> exact hat
      · simp only [opens, hl, hv, Except.isOk, Except.toBool]
  | ended hmain hscheduler =>
    obtain ⟨r, hr⟩ := hmain
    have hl : l.resume answers = l := by
      unfold Loop.resume
      rw [hr]
    rw [hl]
    exact ⟨hs, .inr (.inl rfl)⟩

/-! ### Heartbeats -/

theorem callback_eq {role : NodeRole} :
    l.callback = some role ↔ ∃ next, l.peer = some (.waiting (.writeRole role) next) := by
  unfold callback
  split
  · next role' next hl => simp [hl]
  · next hl => simpa using hl role

theorem Sound.beaten (hs : l.Sound clusterId grpcAddr) (hmain : l'.main = l.main)
    (hscheduler : l'.state.scheduler.isSome = l.state.scheduler.isSome)
    (hpeer : l.peer = none → l.state.election.loopTask = false → False)
    (hleased : l'.state.Leased)
    (hat : ∀ c next, l'.peer = some (.waiting c next) → l'.state.At c next) :
    l'.Sound clusterId grpcAddr := by
  refine ⟨?_, hleased, hat⟩
  cases hs.main with
  | early _ hnone hloop _ => exact (hpeer hnone hloop).elim
  | opening hm hsch =>
    rw [hsch] at hscheduler
    exact .opening (hmain ▸ hm) (Option.isNone_iff_eq_none.1 (by simpa using hscheduler))
  | ended hm hsch =>
    refine .ended (hmain ▸ hm) ?_
    rw [hscheduler, hsch]
    simp only [returned, hmain]

theorem beat_cases (hs : l.Sound clusterId grpcAddr)
    (hloop : l.state.election.loopTask = true ∧ l.idle = true) :
    Startup.Sound clusterId grpcAddr (l.call RaftElection.electionRound) ∧
      (l.call RaftElection.electionRound).state = l.state ∧ l.callback = none := by
  obtain ⟨c, next, hat, heq⟩ := CNFAgent.at_beat hs.leased
  have hl : l.call RaftElection.electionRound = { l with peer := some (.waiting c next) } := by
    unfold Loop.call
    rw [heq]
  have hc : l.callback = none := by
    have hidle := hloop.2
    unfold idle at hidle
    unfold callback
    split
    · next hp => simp [hp] at hidle
    · rfl
  rw [hl]
  refine ⟨hs.beaten rfl rfl (fun _ h => ?_) hs.leased fun c' next' hp => ?_, rfl, hc⟩
  · rw [h] at hloop
    exact Bool.false_ne_true hloop.1
  · cases hp
    exact hat

theorem resumePeer_outside (hs : l.Sound clusterId grpcAddr) (hl : l.callback = none)
    (answers : AgentAnswers L) : Startup.Sound clusterId grpcAddr (l.resumePeer answers) ∧
      (Startup.callback (l.resumePeer answers) = none →
        (l.resumePeer answers).state.role = l.state.role ∧
        (l.resumePeer answers).state.scheduler = l.state.scheduler) := by
  rcases hpeer : l.peer with _ | _ | ⟨c, next⟩
  · have heq : l.resumePeer answers = l := by
      unfold Loop.resumePeer
      rw [hpeer]
    rw [heq]
    exact ⟨hs, fun _ => ⟨rfl, rfl⟩⟩
  · have heq : l.resumePeer answers = l := by
      unfold Loop.resumePeer
      rw [hpeer]
    rw [heq]
    exact ⟨hs, fun _ => ⟨rfl, rfl⟩⟩
  · have hc : ∀ role, c ≠ .writeRole role := by
      rintro role rfl
      have hrole := callback_eq.2 ⟨next, hpeer⟩
      simp [hl] at hrole
    have hp : l.peer = none → l.state.election.loopTask = false → False := by simp [hpeer]
    have hr := (hs.heartbeat c next hpeer).replied hc (answers c)
    rw [resumePeer_waiting hpeer]
    generalize settle l.state (next (answers c)) = q at hr
    cases hr with
    | ended s' x hrole hlease hscheduler =>
      refine ⟨hs.beaten rfl (congrArg _ hscheduler) hp ?_ nofun, fun _ => ⟨hrole, hscheduler⟩⟩
      unfold CNFAgent.Leased
      rw [hrole, hlease]
      exact hs.leased
    | reads next' hnext =>
      refine ⟨hs.beaten rfl rfl hp hs.leased ?_, fun _ => ⟨rfl, rfl⟩⟩
      rintro _ _ ⟨⟩
      exact hnext
    | won lease next' hnext =>
      refine ⟨hs.beaten rfl rfl hp (fun _ => rfl) ?_, nofun⟩
      rintro _ _ ⟨⟩
      exact ⟨rfl, hnext⟩
    | lost next' hnext =>
      refine ⟨hs.beaten rfl rfl hp nofun ?_, nofun⟩
      rintro _ _ ⟨⟩
      exact ⟨rfl, hnext⟩

theorem resumePeer_callback (hs : l.Sound clusterId grpcAddr) {role : NodeRole}
    (hl : l.callback = some role) (answers : AgentAnswers L) :
    Startup.Sound clusterId grpcAddr (l.resumePeer answers) ∧ l.state.role = role ∧
      (l.resumePeer answers).state =
        if (answers (.writeRole role)).isOk then l.state.switch role else l.state := by
  obtain ⟨next, hpeer⟩ := callback_eq.1 hl
  obtain ⟨hrole, hnext⟩ := hs.heartbeat _ _ hpeer
  have hp : l.peer = none → l.state.election.loopTask = false → False := by simp [hpeer]
  rw [resumePeer_waiting hpeer]
  rcases answers (.writeRole role) with e | v
  · obtain ⟨x, heq⟩ := hnext.error e l.state
    rw [heq]
    exact ⟨hs.beaten rfl rfl hp hs.leased nofun, hrole, rfl⟩
  · obtain ⟨x, heq⟩ := hnext.ok l.state
    rw [heq]
    refine ⟨hs.beaten rfl ?_ hp hs.leased nofun, hrole, rfl⟩
    exact Option.isSome_map

theorem synced_switch {s : CNFAgent L} {role : NodeRole} (hs : s.scheduler.isSome = true)
    (hrole : s.role = role) : (s.switch role).Synced := by
  obtain ⟨scheduler, hsch⟩ := Option.isSome_iff_exists.1 hs
  refine ⟨scheduler.setMaster (role = .master), ?_, ?_⟩
  · simp [CNFAgent.switch, hsch]
  · simp [Scheduler.setMaster, CNFAgent.role, CNFAgent.switch, ← hrole]

/-! ### Steps and runs -/

theorem sound_step (hs : l.Sound clusterId grpcAddr) (h : l.step a = some l') :
    l'.Sound clusterId grpcAddr := by
  cases a with
  | main answers =>
    obtain rfl := Option.some.inj h
    exact (resume_cases hs answers).1
  | beat =>
    simp only [step] at h
    split_ifs at h with hloop
    obtain rfl := Option.some.inj h
    exact (beat_cases hs hloop).1
  | heartbeat answers =>
    obtain rfl := Option.some.inj h
    cases hc : l.callback with
    | none => exact (resumePeer_outside hs hc answers).1
    | some role => exact (resumePeer_callback hs hc answers).1

theorem synced_made {s : CNFAgent L} :
    { s with scheduler := some {}, running := true : CNFAgent L }.Synced ↔ s.role ≠ .master := by
  simp [CNFAgent.Synced, CNFAgent.role]

theorem Sound.made (hs : l.Sound clusterId grpcAddr) (hl : l.returned = true) :
    l.state.scheduler.isSome = true := by
  cases hs.main with
  | early hmain _ _ _ =>
    rcases hmain with ⟨_, hm, -⟩ | ⟨_, hm, -⟩ | ⟨_, _, _, hm, -⟩ <;> simp [returned, hm] at hl
  | opening hmain _ =>
    obtain ⟨_, hm, -⟩ := hmain
    simp [returned, hm] at hl
  | ended _ hscheduler => exact hscheduler.trans hl

theorem inSync_step (hs : l.Sound clusterId grpcAddr) (h : l.step a = some l')
    (ha : l.Answered a) (ht : l.InTime a) (hl : l.InSync) : l'.InSync := by
  intro hr hc
  cases a with
  | main answers =>
    obtain rfl := Option.some.inj h
    rcases (resume_cases hs answers).2 with hr' | heq | ⟨hopens, hstate⟩
    · exact absurd hr (by simp [hr'])
    · rw [heq] at hr hc ⊢
      exact hl hr hc
    · rw [hstate, synced_made]
      intro hm
      have hcb := ht hopens hm
      have hc' : l.callback = none := by
        unfold callback at hc ⊢
        rwa [resume_peer] at hc
      simp [hc'] at hcb
  | beat =>
    simp only [step] at h
    split_ifs at h with hloop
    obtain rfl := Option.some.inj h
    obtain ⟨-, hstate, hc'⟩ := beat_cases hs hloop
    rw [hstate]
    exact hl hr hc'
  | heartbeat answers =>
    obtain rfl := Option.some.inj h
    have hr' : l.returned = true := by
      unfold returned at hr ⊢
      rwa [Loop.resumePeer_main] at hr
    cases hcb : l.callback with
    | none =>
      obtain ⟨hrole, hscheduler⟩ := (resumePeer_outside hs hcb answers).2 hc
      unfold CNFAgent.Synced
      rw [hrole, hscheduler]
      exact hl hr' hcb
    | some role =>
      obtain ⟨-, hrole, hstate⟩ := resumePeer_callback hs hcb answers
      have hmade := hs.made hr'
      have hok : (answers (.writeRole role)).isOk = true := ha hmade role hcb
      rw [hstate, if_pos hok]
      exact synced_switch hmade hrole

theorem resume_of_opens (hs : l.Sound clusterId grpcAddr) {answers : AgentAnswers L}
    (ho : l.opens (.main answers) = true) : Startup.returned (l.resume answers) = true ∧
      (l.resume answers).state = { l.state with scheduler := some {}, running := true } := by
  cases hs.main with
  | early hmain _ _ _ =>
    rcases hmain with ⟨_, hm, -⟩ | ⟨_, hm, -⟩ | ⟨_, _, _, hm, -⟩ <;> simp [opens, hm] at ho
  | opening hmain hscheduler =>
    obtain ⟨next, hl, hn⟩ := hmain
    rcases resume_leading hn hl answers with ⟨e, he, -, -⟩ | ⟨v, -, hmain, hstate⟩
    · simp [opens, hl, he, Except.isOk, Except.toBool] at ho
    · exact ⟨returned_of_ok hmain, hstate⟩
  | ended hmain _ =>
    obtain ⟨r, hm⟩ := hmain
    simp [opens, hm] at ho

theorem inTime_of_inSync (hs : l.Sound clusterId grpcAddr) (h : l.step a = some l')
    (hl : l'.InSync) : l.InTime a := by
  intro ho hm
  cases a with
  | main answers =>
    obtain rfl := Option.some.inj h
    obtain ⟨hr, hstate⟩ := resume_of_opens hs ho
    rw [← Option.ne_none_iff_isSome]
    intro hc
    have hc' : Startup.callback (l.resume answers) = none := by
      unfold callback at hc ⊢
      rwa [resume_peer]
    have hsync := hl hr hc'
    rw [hstate, synced_made] at hsync
    exact hsync hm
  | beat => exact absurd ho Bool.false_ne_true
  | heartbeat answers => exact absurd ho Bool.false_ne_true

theorem inSync_start (clusterId grpcAddr : String) :
    (start clusterId grpcAddr : Startup L).InSync := by
  intro hr
  have hs := (sound_start (L := L) clusterId grpcAddr).made hr
  exact absurd hs Bool.false_ne_true

end Startup

open Startup in
/-- As long as the database answers the callbacks, the scheduler follows the mastership, unless it
is made on a master that has already been told. -/
theorem scheduler_in_sync_iff (clusterId grpcAddr : String) (acts : List (StartupAct L))
    (ha : Along step (fun l a _ => l.Answered a) (start clusterId grpcAddr) acts) :
    Along step (fun _ _ l' => l'.InSync) (start clusterId grpcAddr) acts ↔
      Along step (fun l a _ => l.InTime a) (start clusterId grpcAddr) acts := by
  have hs := sound_start (L := L) clusterId grpcAddr
  constructor
  · intro hl
    exact hl.imp (Startup.Sound clusterId grpcAddr)
      (fun _ _ _ h hs hl => ⟨inTime_of_inSync hs h hl, sound_step hs h⟩) hs
  · intro ht
    refine (ha.and ht).imp (fun l => l.Sound clusterId grpcAddr ∧ l.InSync) ?_
      ⟨hs, inSync_start clusterId grpcAddr⟩
    rintro l a l' h ⟨hs, hl⟩ ⟨ha, ht⟩
    have hl' := inSync_step hs h ha ht hl
    exact ⟨hl', sound_step hs h, hl'⟩

/-! ### Schedules -/

instance (l : Startup L) (a : StartupAct L) : Decidable (l.Answered a) :=
  inferInstanceAs (Decidable (l.state.scheduler.isSome = true →
    ∀ role ∈ l.callback, a.writes role = true))

instance (l : Startup L) : Decidable l.InSync :=
  inferInstanceAs (Decidable (l.returned = true → l.callback = none →
    ∃ scheduler ∈ l.state.scheduler, (scheduler.isMaster = true ↔ l.state.role = .master)))

instance (l : Startup L) (a : StartupAct L) : Decidable (l.InTime a) :=
  inferInstanceAs (Decidable (l.opens a = true → l.state.role = .master →
    l.callback.isSome = true))

def vacancy : AgentAnswers Unit
  | .initDb => .ok ()
  | .upsertSelfCluster => .ok ()
  | .registerPeer _ _ => .ok ()
  | .startGrpc => .ok ()
  | .acquire _ => .ok (true, ())
  | .readMaster => .ok ""
  | .refreshLease => .ok 9
  | .revokeLease => .ok ()
  | .writeRole _ => .ok ()

/-- The first acquisition may land in the middle of start-up, as long as its callback ends after
the scheduler has been made. -/
theorem scheduler_in_sync_after_slow_callback : Along Startup.step (fun _ _ l' => l'.InSync)
    (Startup.start "iad" "10.0.0.1:50051") [.main vacancy, .main vacancy, .main vacancy, .beat,
      .heartbeat vacancy, .main vacancy, .heartbeat vacancy, .beat, .heartbeat vacancy] :=
  (scheduler_in_sync_iff "iad" "10.0.0.1:50051" _ (by decide +kernel)).2 (by decide +kernel)

/-- The first heartbeat wins and calls back while the gRPC server is being started: the scheduler
stays inactive. -/
theorem not_scheduler_in_sync : ∃ acts : List (StartupAct Unit),
    Along Startup.step (fun l a _ => l.Answered a) (Startup.start "iad" "10.0.0.1:50051") acts ∧
    ¬ Along Startup.step (fun _ _ l' => l'.InSync) (Startup.start "iad" "10.0.0.1:50051") acts :=
  ⟨[.main vacancy, .main vacancy, .main vacancy, .beat, .heartbeat vacancy, .heartbeat vacancy,
    .main vacancy], by decide +kernel, by decide +kernel⟩

end NovaFederation
