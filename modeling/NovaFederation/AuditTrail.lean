import NovaFederation.MigrationTable

/-!
# The row and its events

`_transition` writes the state and adds an event in one transaction, and sets `finished_at` when
the state is `done`. `_fail` writes the state and `finished_at` and adds no event; the abort
endpoint writes the state alone. So the events tell the state of the row, and `finished_at` its
end, for as long as only transitions are committed.
-/

namespace NovaFederation
open History Schedule
variable {kind : MigrationType} {cfg : Settings} {p : Plan}

/-- The row of a migration and its events, what the engine will still do, and how many abort
requests have been accepted and not written yet. -/
structure AuditedRow where
  row : Migration
  events : List MigrationEvent := []
  engine : Trace
  waiting : ℕ := 0

inductive AuditAct
  | engine (now : Timestamp)
  | check
  | write (committed : Bool)

def MigrationContext.row (ctx : MigrationContext) (kind : MigrationType) : Migration where
  id := ctx.migrationId
  vmId := ctx.vmId
  sourceClusterId := ctx.sourceClusterId
  destClusterId := ctx.destClusterId
  type := kind
  options := ctx.options

namespace AuditedRow

def start (kind : MigrationType) (cfg : Settings) (ctx : MigrationContext) (O : World) :
    AuditedRow where
  row := ctx.row kind
  engine := (kind.migrate cfg ctx O).trace

def step (s : AuditedRow) : AuditAct → Option AuditedRow
  | .engine now =>
    match s.engine with
    | [] => none
    | e :: rest => some { s with
        row := s.row.apply now e
        events := s.events ++ eventOf s.row.id e
        engine := rest }
  | .check =>
    if s.row.state.isTerminal then some s
    else some { s with waiting := s.waiting + 1 }
  | .write committed =>
    if s.waiting = 0 then none
    else some { s with
      row := if committed then s.row.abort else s.row
      waiting := s.waiting - 1 }

def recorded (s : AuditedRow) : String :=
  (s.events.getLast?.map MigrationEvent.state).getD MigrationState.pending.value

/-- The latest event tells the state of the row, and `finished_at` whether it is final. -/
structure Tells (s : AuditedRow) : Prop where
  state : s.recorded = s.row.state.value
  finished : s.row.finishedAt.isSome = s.row.state.isTerminal

/-- What the step commits, if anything, is a transition. -/
def Narrated (s : AuditedRow) (a : AuditAct) (_ : AuditedRow) : Prop :=
  match a with
  | .engine _ => ∀ e ∈ s.engine.head?, ¬ FailRecorded e
  | .check => True
  | .write committed => committed = false

/-! ### The row and its two writers -/

def system (s : AuditedRow) : System := ⟨s.row.state, s.engine, s.waiting⟩

end AuditedRow

def AuditAct.action : AuditAct → Action
  | .engine _ => .engine
  | .check => .check
  | .write committed => .write committed

namespace AuditedRow
variable {s s' : AuditedRow} {a : AuditAct}

theorem step_system (h : s.step a = some s') : s.system.step a.action = some s'.system := by
  cases a with
  | engine now =>
    unfold step at h
    dsimp only at h
    split at h
    · cases h
    · next e rest heng =>
      obtain rfl := Option.some.inj h
      simp only [System.step, AuditAct.action, system, heng, Migration.state_apply]
  | check =>
    by_cases hterm : s.row.state.isTerminal = true
    · obtain rfl := Option.some.inj ((if_pos hterm).symm.trans h)
      exact if_pos hterm
    · obtain rfl := Option.some.inj ((if_neg hterm).symm.trans h)
      exact if_neg hterm
  | write committed =>
    by_cases hwait : s.waiting = 0
    · cases (if_pos hwait).symm.trans h
    · obtain rfl := Option.some.inj ((if_neg hwait).symm.trans h)
      refine (if_neg hwait).trans ?_
      cases committed <;> rfl

/-! ### One step -/

/-- The engine respects its law, the row is not in a state that no event tells of, and the events
tell what it is in. -/
structure Telling (kind : MigrationType) (cfg : Settings) (p : Plan) (s : AuditedRow) : Prop where
  consistent : Consistent kind cfg p s.system
  told : s.row.state ≠ .failed ∧ s.row.state ≠ .aborted
  tells : s.Tells

theorem recorded_transition (s : AuditedRow) (row : Migration) (state : MigrationState)
    (progress : ℚ) (rest : Trace) :
    { s with
      row
      events := s.events ++ [MigrationEvent.entered s.row.id state progress]
      engine := rest : AuditedRow }.recorded = state.value := by
  simp [recorded, MigrationEvent.entered]

theorem Telling.unfinished (ht : s.Telling kind cfg p) {e : CallEvent} {rest : Trace}
    (heng : s.engine = e :: rest) (he : commits e = true) : s.row.finishedAt = none := by
  obtain ⟨past, hr, hrow⟩ := ht.consistent
  change Respects (Law kind cfg p) (past ++ s.engine) at hr
  rw [heng] at hr
  have hopen : ¬ s.row.state.isTerminal = true := by
    intro hterm
    have hend : s.row.state = .done ∨ s.row.state = .failed := by
      have hab := ht.told.2
      cases hst : s.row.state <;> simp_all [MigrationState.isTerminal]
    have hno := not_commits_of_closed (hr.at_split rfl) (hrow hend)
    rw [hno] at he
    cases he
  have hfin := ht.tells.finished
  rw [Bool.eq_false_of_not_eq_true hopen] at hfin
  exact Option.isNone_iff_eq_none.1 (by simpa using hfin)

theorem Telling.step (ht : s.Telling kind cfg p) (h : s.step a = some s')
    (hn : s.Narrated a s') : s'.Telling kind cfg p := by
  have hc := consistent_step (step_system h) ht.consistent
  cases a with
  | engine now =>
    simp only [AuditedRow.step] at h
    split at h
    · cases h
    · next e rest heng =>
      obtain rfl := Option.some.inj h
      have hnofail : ¬ FailRecorded e := hn e (by simp [heng])
      cases hcm : commits e with
      | false =>
        have hev : eventOf s.row.id e = [] := by
          unfold eventOf
          split
          · cases hcm
          · rfl
        have hrow := Migration.apply_of_not_commits hcm s.row now
        refine ⟨hc, ?_, ?_, ?_⟩
        · rw [hrow]
          exact ht.told
        · simpa [recorded, hev, hrow] using ht.tells.state
        · simpa [hrow] using ht.tells.finished
      | true =>
        have hnone := ht.unfinished heng hcm
        obtain ⟨past, hr, -⟩ := ht.consistent
        change Respects (Law kind cfg p) (past ++ s.engine) at hr
        rw [heng] at hr
        have hl := hr.at_split rfl
        unfold commits at hcm
        split at hcm
        · next task state progress _ =>
          obtain ⟨-, -, -, hs⟩ := (law_forward rfl).1 hl
          have hstate : state.isStep = true ∨ state = .done := hs.imp_right And.left
          refine ⟨hc, ?_, recorded_transition s _ state progress rest, ?_⟩
          · simp only [Migration.apply, Migration.transition]
            rcases hstate with hstep | rfl
            · constructor
              · rintro rfl
                cases hstep
              · rintro rfl
                cases hstep
            · decide
          · simp only [Migration.apply, Migration.transition, hnone]
            rcases hstate with hstep | rfl
            · cases state <;> first | rfl | cases hstep
            · rfl
        · exact absurd ⟨_, rfl⟩ hnofail
        · cases hcm
  | check =>
    simp only [AuditedRow.step] at h
    split at h
    · obtain rfl := Option.some.inj h
      exact ht
    · obtain rfl := Option.some.inj h
      exact ⟨hc, ht.told, ht.tells.state, ht.tells.finished⟩
  | write committed =>
    obtain rfl : committed = false := hn
    simp only [AuditedRow.step] at h
    split at h
    · cases h
    · obtain rfl := Option.some.inj h
      exact ⟨hc, ht.told, ht.tells.state, ht.tells.finished⟩

theorem value_ne_of_ne {state state' : MigrationState} (h : state ≠ state') :
    state.value ≠ state'.value := by
  cases state <;> cases state' <;> first | exact absurd rfl h | decide

/-- A committed failure and a committed abort leave the events behind. -/
theorem Telling.narrated (ht : s.Telling kind cfg p) (h : s.step a = some s')
    (htells : s'.Tells) : s.Narrated a s' := by
  have hbefore := ht.tells.state
  have hafter := htells.state
  cases a with
  | engine now =>
    simp only [AuditedRow.step] at h
    split at h
    · cases h
    · next e rest heng =>
      obtain rfl := Option.some.inj h
      intro e' he' hfail
      rw [heng] at he'
      obtain rfl : e = e' := Option.some.inj he'
      obtain ⟨error, rfl⟩ := hfail
      have hsame : s.recorded = MigrationState.failed.value := by
        simpa [recorded, eventOf, Migration.apply, Migration.fail] using hafter
      exact value_ne_of_ne ht.told.1 (hbefore.symm.trans hsame)
  | check => trivial
  | write committed =>
    cases committed with
    | false => rfl
    | true =>
      simp only [AuditedRow.step] at h
      split at h
      · cases h
      · obtain rfl := Option.some.inj h
        have hsame : s.recorded = MigrationState.aborted.value := hafter
        exact absurd (hbefore.symm.trans hsame) (value_ne_of_ne ht.told.2)

theorem telling_start (kind : MigrationType) (cfg : Settings) (ctx : MigrationContext)
    (O : World) :
    (start kind cfg ctx O).Telling kind cfg (kind.migrate cfg ctx O).state.ctx.plan :=
  ⟨consistent_start kind cfg ctx O, by simp [start, MigrationContext.row], rfl, rfl⟩

end AuditedRow

open AuditedRow in
theorem audit_trail_iff (kind : MigrationType) (cfg : Settings) (ctx : MigrationContext)
    (O : World) (acts : List AuditAct) :
    (start kind cfg ctx O).Tells ∧
        Along step (fun _ _ s' => s'.Tells) (start kind cfg ctx O) acts ↔
      Along step Narrated (start kind cfg ctx O) acts := by
  have hstart := telling_start kind cfg ctx O
  constructor
  · rintro ⟨-, htells⟩
    refine htells.imp _ (fun s a s' h ht htells => ?_) hstart
    have hn := ht.narrated h htells
    exact ⟨hn, ht.step h hn⟩
  · intro hn
    refine ⟨hstart.tells, hn.imp _ (fun s a s' h ht hn => ?_) hstart⟩
    exact ⟨(ht.step h hn).tells, ht.step h hn⟩

instance (s : AuditedRow) : Decidable s.Tells :=
  decidable_of_iff (s.recorded = s.row.state.value ∧
      s.row.finishedAt.isSome = s.row.state.isTerminal)
    ⟨fun ⟨hs, hf⟩ => ⟨hs, hf⟩, fun ht => ⟨ht.state, ht.finished⟩⟩

def vmMissing : World
  | _, .getVm vmId => .error ⟨.vmNotFound, s!"VM {vmId} not found"⟩
  | h, c => cooperative twoVolumes h c

open AuditedRow in
/-- A run that fails in the preflight, and an abort of one that has not begun. -/
theorem not_audit_trail :
    ¬ Along step (fun _ _ s' => s'.Tells)
        (start .cold settings (connected .cold) vmMissing) [.engine 1, .engine 2, .engine 3] ∧
      ¬ Along step (fun _ _ s' => s'.Tells)
        (start .cold settings (connected .cold) (cooperative twoVolumes))
        [.check, .write true] := by
  decide +kernel

end NovaFederation
