import NovaFederation.TaskPlaces

/-!
# Aborting a run

`abort` and `run` are two tasks of one event loop that share the engine object. The flag that
`abort` sets is read once, when the preflight is complete. Whatever the run is doing later, it
goes on after `abort` has returned, and a failure of its own makes it call the handlers that
`abort` has already called. `Heeds` says when none of this happens.
-/

namespace NovaFederation
open Coroutine MigrationEngine Schedule
variable {kind : MigrationType} {cfg : Settings} {s t : EngineState} {h k : Trace}
  {m : Paused EngineState PyException Call Call.Reply Bool} {c : Call}

/-- The loop of one run, the main task, and of one call of `abort`. -/
abbrev MigrationLoop := Loop EngineState PyException Call Call.Reply Bool Unit
abbrev CallAnswers := Answers PyException Call Call.Reply
abbrev LoopTurn := Turn PyException Call Call.Reply

/-- `abort` is called when the run has had the replies `before`. -/
def abortCalled (kind : MigrationType) (cfg : Settings) (ctx : MigrationContext) (reason : String)
    (before : List CallAnswers) : MigrationLoop :=
  ((Loop.start (EngineState.init ctx) (kind.run cfg)).resumeAll before).call
    (MigrationEngine.abort cfg reason)

def turnStep (l : MigrationLoop) (turn : LoopTurn) : Option MigrationLoop := some (l.turn turn)

def returned (l : MigrationLoop) : Bool :=
  match l.peer with
  | some (.done (.ok _)) => true
  | _ => false

def recorded (l : MigrationLoop) : Bool :=
  match l.peer with
  | some (.done (.ok _)) => true
  | some (.waiting (.fail _) _) => false
  | some (.waiting _ _) => true
  | _ => false

def returnedTrue (m : Paused EngineState PyException Call Call.Reply Bool) : Bool :=
  match m with
  | .done (.ok b) => b
  | _ => false

def awaitsForward (m : Paused EngineState PyException Call Call.Reply Bool) : Bool :=
  match m with
  | .waiting c _ => c.isForward
  | _ => false

/-- The monitor has ended, and the run waits for a thread that has been running since before
the monitor's calls. -/
def joins (m m' : Paused EngineState PyException Call Call.Reply Bool) : Bool :=
  match m, m' with
  | .waiting c _, .waiting (.doMigrate _ _ _) _ => c.isMonitor
  | _, _ => false

def issuesForward (m m' : Paused EngineState PyException Call Call.Reply Bool) : Bool :=
  awaitsForward m' && !joins m m'

def isMain : LoopTurn → Bool
  | .main _ => true
  | .peer _ => false

/-! ### What the law asks for -/

/-- Each registered handler has been called once, the row says that the migration failed, and
the run has not returned `True`. -/
def Halted (l : MigrationLoop) : Prop :=
  l.state.attempted.Perm l.state.rollbacks ∧ rowState l.history = .failed ∧
    returnedTrue l.main = false

/-- Once `abort` has returned, a run that had returned `True` before is as it was, and any other
one has halted and issues no forward call. -/
def AbortEffective (called l : MigrationLoop) (turn : LoopTurn) (l' : MigrationLoop) : Prop :=
  returned l' = true →
    if returnedTrue called.main then
      rowState l'.history = rowState called.history ∧
        l'.state.attempted = called.state.attempted
    else
      Halted l' ∧ (returned l = true → isMain turn = true → issuesForward l.main l'.main = false)

instance (called l : MigrationLoop) (turn : LoopTurn) (l' : MigrationLoop) :
    Decidable (AbortEffective called l turn l') :=
  have : Decidable (Halted l') := inferInstanceAs (Decidable (_ ∧ _ ∧ _))
  inferInstanceAs (Decidable (_ → ite _ _ _))

/-! ### When it is met -/

def due (l : MigrationLoop) (answers : CallAnswers) : Option CallEvent :=
  match l.main with
  | .waiting c _ => some ⟨c, answers c⟩
  | .done _ => none

/-- The reply makes the step raise or completes the preflight; a reply to the run's own failure
record is an exception, or there is no handler to call. -/
def halting (kind : MigrationType) (s : EngineState) (h : Trace) (e : CallEvent) : Bool :=
  if e.call.isForward then
    escapes kind e || completesPreflight kind s h e
  else
    !e.reply.isOk || s.rollbacks.isEmpty

/-- The run goes on, but the reply commits no transaction and no handler is registered. -/
def harmless (kind : MigrationType) (s : EngineState) (h : Trace) (e : CallEvent) : Bool :=
  e.call.isForward && !commits e && !arms kind s.ctx.rbdImages s.ctx.vmIps (tally h) e

def records (l : MigrationLoop) (answers : CallAnswers) : Bool :=
  match l.peer with
  | some (.waiting (.fail error) _) => (answers (.fail error)).isOk
  | _ => false

/-- When `abort` records the failure, no handler has been called and the run has not returned
`True`; from then on the run is given halting replies, or harmless ones until `abort` returns
and when the monitor ends. All of this is read off the state before the turn and the reply. -/
def Heeds (kind : MigrationType) (l : MigrationLoop) (turn : LoopTurn) (_ : MigrationLoop) :
    Prop :=
  match turn with
  | .peer answers =>
    records l answers = true → l.state.attempted = [] ∧ returnedTrue l.main = false
  | .main answers =>
    recorded l = true → (due l answers).all (halting kind l.state l.history) = true ∨
      (due l answers).all (harmless kind l.state l.history) = true ∧
        (returned l = false ∨
          (due l answers).any (monitorEnds l.state.cancelled (wakes l.history)) = true)

instance (kind : MigrationType) (l : MigrationLoop) (turn : LoopTurn) (l' : MigrationLoop) :
    Decidable (Heeds kind l turn l') :=
  match turn with
  | .peer _ => inferInstanceAs (Decidable (_ → _ ∧ _))
  | .main _ => inferInstanceAs (Decidable (_ → _ ∨ _ ∧ _))

/-! ### Where the two tasks are -/

inductive Phase (kind : MigrationType) (cfg : Settings) (s : EngineState) (h : Trace) :
    Paused EngineState PyException Call Call.Reply Bool → Prop
  | ended (r : Except PyException Bool) : Phase kind cfg s h (.done r)
  | body {c : Call} {next : Except PyException c.Reply → Engine Bool}
      (hp : Place kind cfg s h c next) :
    Phase kind cfg s h (.waiting c fun r => tryCatch (next r) (compensate cfg))
  | failing (error : String) :
    Phase kind cfg s h (.waiting (.fail error) fun r =>
      ofExcept r >>= fun _ => runRollbacks cfg >>= fun _ => pure false)
  | rolling {rest : List Rollback} {c : Call} {next : Except PyException c.Reply → Engine Unit}
      (hr : Rolling cfg rest c next) (hne : s.attempted ≠ []) :
    Phase kind cfg s h (.waiting c fun r => next r >>= fun _ => pure false)

def Calm (m : Paused EngineState PyException Call Call.Reply Bool) : Prop :=
  match m with
  | .done r => r ≠ .ok true
  | .waiting c _ => ¬ Handling c

inductive Aborting (cfg : Settings) (s : EngineState) (h : Trace)
    (m : Paused EngineState PyException Call Call.Reply Bool) :
    Option (Paused EngineState PyException Call Call.Reply Unit) → Prop
  | failing (error : String) :
    Aborting cfg s h m (some (.waiting (.fail error) fun r =>
      ofExcept r >>= fun _ => runRollbacks cfg))
  | raised (e : PyException) : Aborting cfg s h m (some (.done (.error e)))
  | rolling {rest : List Rollback} {c : Call} {next : Except PyException c.Reply → Engine Unit}
      (hr : Rolling cfg rest c next) (hne : s.attempted ≠ [])
      (hat : s.attempted ++ rest = s.rollbacks.reverse) (hrow : rowState h = .failed)
      (hm : Calm m) :
    Aborting cfg s h m (some (.waiting c next))
  | returned (hat : s.attempted = s.rollbacks.reverse) (hrow : rowState h = .failed)
      (hm : Calm m) :
    Aborting cfg s h m (some (.done (.ok ())))

structure Tracked (kind : MigrationType) (cfg : Settings) (l : MigrationLoop) : Prop where
  aborted : l.state.aborted = true
  main : Phase kind cfg l.state l.history l.main
  peer : Aborting cfg l.state l.history l.main l.peer

theorem Calm.of_phase (hp : Phase kind cfg s h m) (hat : s.attempted = [])
    (hm : returnedTrue m = false) : Calm m := by
  cases hp with
  | ended r =>
    rintro rfl
    cases hm
  | body hp =>
    intro hq
    obtain ⟨hf, -⟩ := hq
    simp [hp.forward] at hf
  | failing error =>
    intro hq
    obtain ⟨-, hne⟩ := hq
    exact hne error rfl
  | rolling hr hne => exact absurd hat hne

theorem Calm.returnedTrue (hm : Calm m) : returnedTrue m = false := by
  rcases m with (e | b) | ⟨c, next⟩
  · rfl
  · cases b with
    | true => exact absurd rfl hm
    | false => rfl
  · rfl

theorem Phase.transfer (hp : Phase kind cfg s h m) (hl : t.roster = s.roster)
    (hc : counts k = counts h)
    (hne : s.attempted ≠ [] → t.attempted ≠ []) : Phase kind cfg t k m := by
  cases hp with
  | ended r => exact .ended r
  | body hp => exact .body (hp.transfer hl hc)
  | failing error => exact .failing error
  | rolling hr hs => exact .rolling hr (hne hs)

/-! ### A turn of the run -/

theorem settle_compensate (s : EngineState) (e : PyException) :
    settle s (compensate cfg e) =
      ({ s with ctx := { s.ctx with error := e.message } },
        .waiting (.fail e.message) fun r =>
          ofExcept r >>= fun _ => runRollbacks cfg >>= fun _ => pure false) := by
  simp only [compensate, MigrationEngine.fail, bind_assoc]
  exact settle_perform_bind { s with ctx := { s.ctx with error := e.message } } _ _

/-- A segment of the body either keeps the run in its body or starts the compensation. -/
theorem phase_guarded {p : Engine Bool} (hr : Reaches kind cfg s h (settle s p)) :
    Phase kind cfg (settle s (tryCatch p (compensate cfg))).1 h
        (settle s (tryCatch p (compensate cfg))).2 ∧
      (settle s (tryCatch p (compensate cfg))).1.aborted = s.aborted ∧
      (settle s (tryCatch p (compensate cfg))).1.attempted = s.attempted := by
  obtain ⟨hab, hat, hplace⟩ := hr
  rw [settle_tryCatch]
  rcases hset : settle s p with ⟨t, (e | b) | ⟨c, next⟩⟩
  · rw [hset] at hab hat
    simp only [settle_compensate]
    exact ⟨.failing _, hab, hat⟩
  · rw [hset] at hab hat
    exact ⟨.ended _, hab, hat⟩
  · rw [hset] at hab hat hplace
    exact ⟨.body (hplace c next rfl), hab, hat⟩

theorem rollbacks_guarded {p : Engine Bool} (hp : (settle s p).1.rollbacks = s.rollbacks) :
    (settle s (tryCatch p (compensate cfg))).1.rollbacks = s.rollbacks := by
  rw [settle_tryCatch]
  rcases hset : settle s p with ⟨t, (e | b) | ⟨c, next⟩⟩ <;> rw [hset] at hp
  · simp only [settle_compensate]
    exact hp
  · exact hp
  · exact hp

theorem phase_rolled {p : Engine Unit} {rest : List Rollback}
    (hr : Rolled cfg rest s (settle s p)) :
    Phase kind cfg (settle s (p >>= fun _ => pure false)).1 h
        (settle s (p >>= fun _ => pure false)).2 ∧
      (settle s (p >>= fun _ => pure false)).1.aborted = s.aborted := by
  obtain ⟨hfr, hend, hroll⟩ := hr
  obtain ⟨hab, -⟩ := same_of_frozen hfr
  rw [settle_bind]
  rcases hset : settle s p with ⟨t, r | ⟨c, next⟩⟩
  · rw [hset] at hend hab
    obtain ⟨rfl, -⟩ := hend r rfl
    exact ⟨.ended _, hab⟩
  · rw [hset] at hroll hab
    obtain ⟨hne, left, hleft, -⟩ := hroll c next rfl
    exact ⟨.rolling hleft hne, hab⟩

theorem Phase.reply {next : Except PyException c.Reply → Engine Bool}
    (hp : Phase kind cfg s h (.waiting c next)) (r : Except PyException c.Reply) :
    Phase kind cfg (settle s (next r)).1 (h ++ [⟨c, r⟩]) (settle s (next r)).2 ∧
      (settle s (next r)).1.aborted = s.aborted := by
  cases hp with
  | body hp =>
    obtain ⟨hphase, hab, -⟩ := phase_guarded (hp.reply r)
    exact ⟨hphase, hab⟩
  | failing error =>
    cases r with
    | error e => exact ⟨.ended _, rfl⟩
    | ok v => exact phase_rolled (rolled_forM s.rollbacks.reverse s)
  | rolling hr hne => exact phase_rolled (hr.reply hne r)

/-! ### A turn that respects the abort -/

theorem not_commits_of_escapes {e : CallEvent} (he : escapes kind e = true) :
    commits e = false := by
  unfold commits
  split
  · simp [escapes, Call.refused] at he
  · simp [escapes, Call.refused] at he
  · rfl

theorem not_commits_of_completes {e : CallEvent} (he : completesPreflight kind s h e = true) :
    commits e = false := by
  unfold commits
  split
  · cases he
  · cases he
  · rfl

/-- The run has left alone what `abort` answers for. -/
structure Stays (s : EngineState) (h : Trace) (e : CallEvent)
    (o : EngineState × Paused EngineState PyException Call Call.Reply Bool) : Prop where
  tallies : tallies o.1 = tallies s
  row : rowState h = .failed → rowState (h ++ [e]) = .failed
  calm : Calm o.2

theorem row_of_not_commits {e : CallEvent} (he : commits e = false)
    (hrow : rowState h = .failed) : rowState (h ++ [e]) = .failed := by
  rw [rowState_snoc, rowApply_of_not_commits he, hrow]

theorem Phase.stays_of_halting {next : Except PyException c.Reply → Engine Bool}
    (hp : Phase kind cfg s h (.waiting c next)) (hm : Calm (.waiting c next))
    (ha : s.aborted = true) {r : Except PyException c.Reply}
    (hr : halting kind s h ⟨c, r⟩ = true) :
    Stays s h ⟨c, r⟩ (settle s (next r)) ∧ awaitsForward (settle s (next r)).2 = false := by
  cases hp with
  | body hp =>
    rw [halting, if_pos hp.forward, Bool.or_eq_true] at hr
    rw [settle_tryCatch]
    rcases hr with hesc | hcomp
    · obtain ⟨t, e, hset, ht⟩ := hp.quits hesc
      simp only [hset, settle_compensate]
      refine ⟨⟨ht, row_of_not_commits (not_commits_of_escapes hesc), ?_⟩, rfl⟩
      intro hq
      obtain ⟨-, hne⟩ := hq
      exact hne _ rfl
    · obtain ⟨t, hset, ht⟩ := hp.completes ha hcomp
      rw [hset]
      exact ⟨⟨ht, row_of_not_commits (not_commits_of_completes hcomp), nofun⟩, rfl⟩
  | failing error =>
    cases r with
    | error e => exact ⟨⟨rfl, row_of_not_commits rfl, nofun⟩, rfl⟩
    | ok v =>
      have hnil : s.rollbacks = [] := by
        simpa [halting, Call.isForward, Except.isOk, Except.toBool] using hr
      have hset : settle s (ofExcept (.ok v) >>= fun _ => runRollbacks cfg >>= fun _ =>
          (pure false : Engine Bool)) = (s, .done (.ok false)) := by
        change settle s (s.rollbacks.reverse.forM (attempt cfg) >>= fun _ => pure false) = _
        rw [hnil]
        rfl
      rw [hset]
      exact ⟨⟨rfl, fun _ => by rw [rowState_snoc]; rfl, nofun⟩, rfl⟩
  | rolling hroll hne => exact absurd hroll.handling hm

theorem Phase.stays_of_harmless {next : Except PyException c.Reply → Engine Bool}
    (hp : Phase kind cfg s h (.waiting c next)) {r : Except PyException c.Reply}
    (hr : harmless kind s h ⟨c, r⟩ = true) : Stays s h ⟨c, r⟩ (settle s (next r)) := by
  simp only [harmless, Bool.and_eq_true, Bool.not_eq_true'] at hr
  obtain ⟨⟨hf, hno⟩, ha⟩ := hr
  cases hp with
  | body hp =>
    obtain ⟨hphase, -, hat⟩ := phase_guarded (hp.reply r)
    have hrb := (hp.rollbacks_eq_iff hno).2 ha
    refine ⟨Prod.ext (rollbacks_guarded hrb) hat, row_of_not_commits hno, ?_⟩
    have hret := hp.returns hno
    have hplace := (hp.reply r).place
    rw [settle_tryCatch]
    rcases hset : settle s _ with ⟨t, (e | b) | ⟨c', next'⟩⟩
    · simp only [settle_compensate]
      intro hq
      obtain ⟨-, hne⟩ := hq
      exact hne _ rfl
    · rw [hset] at hret
      rintro ⟨⟩
      exact hret rfl
    · rw [hset] at hplace
      intro hq
      obtain ⟨hh, -⟩ := hq
      simp [(hplace c' next' rfl).forward] at hh
  | failing error => cases hf
  | rolling hr hne => simp [hr.handling.1] at hf

theorem not_monitorEnds {e : CallEvent} (he : e.call.isMonitor = false) (b : Bool) (n : Wakes) :
    monitorEnds b n e = false := by
  unfold monitorEnds
  split
  · next hc => simp [hc, Call.isMonitor] at he
  · next hc => simp [hc, Call.isMonitor] at he
  · rfl

/-- The run comes to join the migration thread when `monitorEnds` says so, and only then. -/
theorem Phase.joins_eq {next : Except PyException c.Reply → Engine Bool}
    (hp : Phase kind cfg s h (.waiting c next)) (r : Except PyException c.Reply) :
    joins (.waiting c next) (settle s (next r)).2 = monitorEnds s.cancelled (wakes h) ⟨c, r⟩ := by
  have hother (hc : c.isMonitor = false) : joins (.waiting c next) (settle s (next r)).2 =
      monitorEnds s.cancelled (wakes h) ⟨c, r⟩ := by
    rw [not_monitorEnds hc]
    unfold joins
    split
    · next heq _ =>
      cases heq
      exact hc
    · rfl
  cases hp with
  | body hp =>
    by_cases hc : c.isMonitor = true
    · rw [← hp.awaits_iff r hc, settle_tryCatch]
      rcases hset : settle s _ with ⟨t, (e | b) | ⟨c', next'⟩⟩
      · simp only [settle_compensate]
        rfl
      · rfl
      · cases c' <;> first | rfl | exact hc
    · exact hother (by rwa [Bool.not_eq_true] at hc)
  | failing error => exact hother rfl
  | rolling hr hne =>
    obtain ⟨hf, -⟩ := hr.handling
    apply hother
    cases c <;> first | rfl | cases hf

theorem Aborting.stays {o : EngineState × Paused EngineState PyException Call Call.Reply Bool}
    {e : CallEvent} {peer : Option (Paused EngineState PyException Call Call.Reply Unit)}
    (ha : Aborting cfg s h m peer) (hs : Stays s h e o) :
    Aborting cfg o.1 (h ++ [e]) o.2 peer := by
  have hrb : o.1.rollbacks = s.rollbacks := congrArg Prod.fst hs.tallies
  have hat : o.1.attempted = s.attempted := congrArg Prod.snd hs.tallies
  cases ha with
  | failing error => exact .failing error
  | raised e => exact .raised e
  | rolling hr hne heq hrow hm =>
    exact .rolling hr (by rw [hat]; exact hne) (by rw [hat, hrb]; exact heq) (hs.row hrow) hs.calm
  | returned heq hrow hm => exact .returned (by rw [hat, hrb]; exact heq) (hs.row hrow) hs.calm

/-- Until the failure is recorded, nothing is asked of the run. -/
theorem Aborting.free {l : MigrationLoop} (ha : Aborting cfg s h m l.peer)
    (hr : recorded l = false) (m' : Paused EngineState PyException Call Call.Reply Bool) :
    Aborting cfg t k m' l.peer := by
  unfold recorded at hr
  generalize l.peer = peer at ha hr
  cases ha with
  | failing error => exact .failing error
  | raised e => exact .raised e
  | @rolling rest c next hroll =>
    obtain ⟨-, hne⟩ := hroll.handling
    cases c <;> first | exact absurd rfl (hne _) | cases hr
  | returned => cases hr

theorem Aborting.calm {l : MigrationLoop} (ha : Aborting cfg s h m l.peer)
    (hr : recorded l = true) : Calm m := by
  unfold recorded at hr
  generalize l.peer = peer at ha hr
  cases ha with
  | failing error => cases hr
  | raised e => cases hr
  | rolling hroll hne heq hrow hm => exact hm
  | returned heq hrow hm => exact hm

theorem recorded_of_returned {l : MigrationLoop} (hr : returned l = true) : recorded l = true := by
  unfold returned at hr
  unfold recorded
  split at hr
  · next hpeer => rw [hpeer]
  · cases hr

theorem Tracked.resume {l : MigrationLoop} (hl : Tracked kind cfg l) {answers : CallAnswers}
    (hh : Heeds kind l (.main answers) (l.resume answers)) :
    Tracked kind cfg (l.resume answers) ∧
      (returned l = true → issuesForward l.main (l.resume answers).main = false) := by
  obtain ⟨s, h, m, peer⟩ := l
  rcases m with r | ⟨c, next⟩
  · exact ⟨hl, fun _ => rfl⟩
  · obtain ⟨hphase, hab⟩ := hl.main.reply (answers c)
    have haborted := hab.trans hl.aborted
    by_cases hrec : recorded (⟨s, h, .waiting c next, peer⟩ : MigrationLoop) = true
    · have hcalm := hl.peer.calm hrec
      rcases hh hrec with hhalt | ⟨hharm, hret⟩
      · obtain ⟨hstay, hquiet⟩ := hl.main.stays_of_halting hcalm hl.aborted hhalt
        refine ⟨⟨haborted, hphase, hl.peer.stays hstay⟩, fun _ => ?_⟩
        exact Bool.and_eq_false_iff.2 (.inl hquiet)
      · have hstay := hl.main.stays_of_harmless hharm
        refine ⟨⟨haborted, hphase, hl.peer.stays hstay⟩, fun hret' => ?_⟩
        rcases hret with hret | hjoin
        · rw [hret] at hret'
          cases hret'
        · have hj := (hl.main.joins_eq (answers c)).trans hjoin
          change (awaitsForward _ && !joins (.waiting c next) (settle s (next (answers c))).2) = _
          rw [hj, Bool.not_true, Bool.and_false]
    · rw [Bool.not_eq_true] at hrec
      refine ⟨⟨haborted, hphase, hl.peer.free hrec _⟩, fun hret => ?_⟩
      rw [recorded_of_returned hret] at hrec
      cases hrec

/-! ### A turn of `abort` -/

theorem Tracked.of_rolled {p : Engine Unit} {rest : List Rollback} {e : CallEvent}
    (hr : Rolled cfg rest s (settle s p)) (ha : s.aborted = true) (hp : Phase kind cfg s h m)
    (hm : Calm m) (heq : s.attempted ++ rest = s.rollbacks.reverse)
    (hrow : rowState (h ++ [e]) = .failed) (hck : counts (h ++ [e]) = counts h) :
    Tracked kind cfg ⟨(settle s p).1, h ++ [e], m, some (settle s p).2⟩ := by
  obtain ⟨hfr, hend, hroll⟩ := hr
  obtain ⟨hab, hrb, hctx⟩ := same_of_frozen hfr
  have hl : (settle s p).1.roster = s.roster := by rw [EngineState.roster, hctx, hrb]; rfl
  generalize settle s p = o at hend hroll hab hrb hl
  obtain ⟨t, r | ⟨c, next⟩⟩ := o
  · obtain ⟨rfl, hat⟩ := hend r rfl
    have hne : s.attempted ≠ [] → t.attempted ≠ [] := by
      intro hs ht
      rw [hat, List.append_eq_nil_iff] at ht
      exact hs ht.1
    exact ⟨hab.trans ha, hp.transfer hl hck hne, .returned (by rw [hat, hrb, heq]) hrow hm⟩
  · obtain ⟨hne, left, hleft, hat⟩ := hroll c next rfl
    exact ⟨hab.trans ha, hp.transfer hl hck fun _ => hne,
      .rolling hleft hne (by rw [hat, hrb, heq]) hrow hm⟩

theorem Tracked.resumePeer {l : MigrationLoop} (hl : Tracked kind cfg l) {answers : CallAnswers}
    (hh : Heeds kind l (.peer answers) (l.resumePeer answers)) :
    Tracked kind cfg (l.resumePeer answers) := by
  obtain ⟨s, h, m, peer⟩ := l
  obtain ⟨hab, hmain, hpeer⟩ := hl
  cases hpeer with
  | failing error =>
    have hck : counts (h ++ [⟨.fail error, answers (.fail error)⟩]) = counts h := by
      rw [counts, checks_snoc, tally_snoc, wakes_snoc]
      rfl
    change Tracked kind cfg ⟨(settle s (ofExcept (answers (.fail error)) >>= _)).1, _, m,
      some (settle s (ofExcept (answers (.fail error)) >>= _)).2⟩
    cases hr : answers (.fail error) with
    | error e =>
      rw [hr] at hck
      exact ⟨hab, hmain.transfer rfl hck id, .raised e⟩
    | ok v =>
      rw [hr] at hck
      have hrec : records (⟨s, h, m, some (.waiting (.fail error) fun r =>
          ofExcept r >>= fun _ => runRollbacks cfg)⟩ : MigrationLoop) answers = true := by
        change (answers (.fail error)).isOk = true
        rw [hr]
        rfl
      obtain ⟨hat, hm⟩ := hh hrec
      apply Tracked.of_rolled (rolled_forM s.rollbacks.reverse s) hab hmain (.of_phase hmain hat hm)
      · rw [hat, List.nil_append]
      · rw [rowState_snoc]
        rfl
      · exact hck
  | raised e => exact ⟨hab, hmain, .raised e⟩
  | @rolling rest c next hroll hne heq hrow hm =>
    have hc := hroll.handling
    apply Tracked.of_rolled (hroll.reply hne (answers c)) hab hmain hm heq
    · exact row_of_not_commits (hc.not_commits _) hrow
    · exact hc.counts_snoc h _
  | returned heq hrow hm => exact ⟨hab, hmain, .returned heq hrow hm⟩

/-! ### The run -/

theorem phase_start (kind : MigrationType) (cfg : Settings) (s : EngineState) :
    Phase kind cfg (settle s (kind.run cfg)).1 [] (settle s (kind.run cfg)).2 := by
  have hr : Reaches kind cfg s [] (settle s (kind.body cfg)) := by
    rw [body_eq]
    simp only [transition, bind_assoc]
    change Reaches kind cfg s [] (settle
      { s with ctx := { s.ctx with state := .preflight, progress := 5 } }
      (await (.transition .run .preflight 5) >>= fun _ => fetching kind cfg))
    rw [settle_perform_bind]
    refine ⟨rfl, rfl, ?_⟩
    rintro _ _ ⟨⟩
    exact .opening rfl ⟨⟨rfl, rfl⟩, rfl⟩
  rw [MigrationType.run_eq]
  exact (phase_guarded hr).1

theorem phase_resumeAll (before : List CallAnswers) {l : MigrationLoop}
    (hl : Phase kind cfg l.state l.history l.main) :
    Phase kind cfg (l.resumeAll before).state (l.resumeAll before).history
      (l.resumeAll before).main := by
  induction before generalizing l with
  | nil => exact hl
  | cons answers before ih =>
    apply ih
    obtain ⟨s, h, m, peer⟩ := l
    rcases m with r | ⟨c, next⟩
    · exact hl
    · exact (hl.reply (answers c)).1

theorem tracked_abortCalled (kind : MigrationType) (cfg : Settings) (ctx : MigrationContext)
    (reason : String) (before : List CallAnswers) :
    Tracked kind cfg (abortCalled kind cfg ctx reason before) := by
  have hphase := phase_resumeAll before (l := Loop.start (EngineState.init ctx) (kind.run cfg))
    (phase_start kind cfg (EngineState.init ctx))
  unfold abortCalled
  generalize Loop.resumeAll before _ = l at hphase
  obtain ⟨s, h, m, peer⟩ := l
  have hset : settle s (MigrationEngine.abort cfg reason) =
      ({ s with ctx := { s.ctx with error := s!"Aborted: {reason}" }, aborted := true },
        .waiting (.fail s!"Aborted: {reason}") fun r =>
          ofExcept r >>= fun _ => runRollbacks cfg) := by
    simp only [MigrationEngine.abort, MigrationEngine.fail, bind_assoc]
    exact settle_perform_bind
      { s with ctx := { s.ctx with error := s!"Aborted: {reason}" }, aborted := true } _ _
  simp only [Loop.call, hset]
  exact ⟨rfl, hphase.transfer rfl rfl id, .failing _⟩

theorem Tracked.turn {l : MigrationLoop} (hl : Tracked kind cfg l) {turn : LoopTurn}
    (hh : Heeds kind l turn (l.turn turn)) :
    Tracked kind cfg (l.turn turn) ∧ (returned l = true → isMain turn = true →
      issuesForward l.main (l.turn turn).main = false) := by
  cases turn with
  | main answers =>
    obtain ⟨hl', hquiet⟩ := hl.resume hh
    exact ⟨hl', fun hret _ => hquiet hret⟩
  | peer answers => exact ⟨hl.resumePeer hh, nofun⟩

theorem done_of_returnedTrue (hm : returnedTrue m = true) : ∃ r, m = .done r := by
  cases m with
  | done r => exact ⟨r, rfl⟩
  | waiting c next => cases hm

theorem Tracked.halted {l : MigrationLoop} (hl : Tracked kind cfg l) (hr : returned l = true) :
    Halted l := by
  obtain ⟨s, h, m, peer⟩ := l
  obtain ⟨-, -, hpeer⟩ := hl
  cases hpeer with
  | failing error => cases hr
  | raised e => cases hr
  | rolling => cases hr
  | returned heq hrow hm =>
    refine ⟨?_, hrow, hm.returnedTrue⟩
    rw [heq]
    exact List.reverse_perm _

def allWell : CallAnswers := cooperative twoVolumes []

def outage : CallAnswers := fun _ => .error ⟨.other, "connection refused"⟩

end NovaFederation
