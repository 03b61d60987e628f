import NovaFederation.Compute
import NovaFederation.Recovery
import NovaFederation.StateHistory

/-!
# A message that is delivered again

The task of a message builds a new context and runs a new engine on it, whatever the row says,
and the engine begins with an unguarded write of `preflight`. The worker may be lost at any call
of the second run as well, so a redelivery is harmless only when all of it is.
-/

namespace NovaFederation
open History Coroutine MigrationEngine
variable {cfg : Settings} {ctx : MigrationContext} {O : World} {eff : Effects} {status : String}
  {s : EngineState} {h h' : Trace} {e : CallEvent} {x : PyException}

structure RowRecord where
  state : MigrationState := .pending
  progress : ℚ := 0
  error : Option String := none
  deriving DecidableEq

def RowRecord.apply (row : RowRecord) (e : CallEvent) : RowRecord :=
  match e with
  | ⟨.transition _ state progress, .ok _⟩ => { row with state, progress }
  | ⟨.fail error, .ok _⟩ => { row with state := .failed, error := some error }
  | _ => row

def record (h : Trace) : RowRecord := replay RowRecord.apply {} h

theorem record_snoc (h : Trace) (e : CallEvent) : record (h ++ [e]) = (record h).apply e := by
  rw [record, replay_append]
  rfl

theorem record_state (h : Trace) : (record h).state = rowState h := by
  induction h using List.reverseRecOn with
  | nil => rfl
  | append_singleton h e ih =>
    rw [record_snoc, rowState_snoc, ← ih]
    obtain ⟨c, r⟩ := e
    cases c <;> cases r <;> rfl

/-! ### The task -/

structure MigrationMessage where
  migrationId : String
  vmId : String
  sourceCluster : String
  destCluster : String
  options : Options
  live : Bool

namespace MigrationMessage

def context (m : MigrationMessage) : MigrationContext :=
  executeMigration m.migrationId m.vmId m.sourceCluster m.destCluster m.options m.live

/-- `_execute_migration`, from everything that has happened so far. -/
def execute (m : MigrationMessage) (cfg : Settings) (O : World) (h : Trace) :
    Outcome EngineState PyException Call Call.Reply Bool :=
  exec O ((migrationType m.live).run cfg) (EngineState.init m.context) h

end MigrationMessage

/-- The row, the VM, its disks and its routes are as they were. -/
structure Unchanged (eff : Effects) (status : String) (h h' : Trace) : Prop where
  row : record h' = record h
  placement : placement h' = placement h
  power : power eff status h' = power eff status h
  disks : primaries h' = primaries h
  volumes : volumes eff h' = volumes eff h
  routes : routes eff h' = routes eff h

/-- Nothing changes at any moment between the two histories. -/
def LeftAlone (eff : Effects) (status : String) (h h' : Trace) : Prop :=
  ∀ pre, h <+: pre → pre <+: h' → Unchanged eff status h pre

/-- The first write of the engine raises, and the record of this failure either raises as well
or finds the row as it would leave it. -/
def TurnedAway (O : World) (h : Trace) : Prop :=
  ∃ x, O h (.transition .run .preflight 5) = .error x ∧
    ((O (h ++ [⟨.transition .run .preflight 5, .error x⟩]) (.fail x.message)).isOk = false ∨
      (record h).state = .failed ∧ (record h).error = some x.message)

theorem Unchanged.refl (eff : Effects) (status : String) (h : Trace) :
    Unchanged eff status h h := ⟨rfl, rfl, rfl, rfl, rfl, rfl⟩

theorem Unchanged.write (hu : Unchanged eff status h h')
    (hc : (∃ task state progress, e.call = .transition task state progress) ∨
      ∃ error, e.call = .fail error) (hrow : (record h').apply e = record h') :
    Unchanged eff status h (h' ++ [e]) := by
  obtain ⟨c, r⟩ := e
  refine ⟨?_, ?_, ?_, ?_, ?_, ?_⟩
  · rw [record_snoc, hrow, hu.row]
  · rw [placement_snoc, ← hu.placement]
    rcases hc with ⟨task, state, progress, rfl⟩ | ⟨error, rfl⟩ <;> rfl
  · rw [power_kept, hu.power]
    · rintro ⟨hs, -⟩
      rcases hc with ⟨task, state, progress, rfl⟩ | ⟨error, rfl⟩ <;> cases hs
    · rcases hc with ⟨task, state, progress, rfl⟩ | ⟨error, rfl⟩ <;> exact nofun
  · rw [primaries_snoc, ← hu.disks]
    rcases hc with ⟨task, state, progress, rfl⟩ | ⟨error, rfl⟩ <;> rfl
  · rw [← hu.volumes, NovaFederation.volumes, Effects.world_snoc]
    rcases hc with ⟨task, state, progress, rfl⟩ | ⟨error, rfl⟩ <;> exact ite_self _
  · rw [← hu.routes]
    funext side pfx
    apply routes_other
    rcases hc with ⟨task, state, progress, rfl⟩ | ⟨error, rfl⟩ <;> exact fun _ => id

/-! ### The second run -/

def EngineState.entered (s : EngineState) : EngineState :=
  { s with ctx := { s.ctx with state := .preflight, progress := 5 } }

theorem settle_run (kind : MigrationType) (cfg : Settings) (s : EngineState) :
    ∃ next, settle s (kind.run cfg) =
        (s.entered, .waiting (.transition .run .preflight 5) next) ∧
      ∀ x, next (.error x) = compensate cfg x := by
  cases kind with
  | cold => exact ⟨_, rfl, fun _ => rfl⟩
  | live => exact ⟨_, rfl, fun _ => rfl⟩

theorem exec_compensate_unregistered (hs : s.rollbacks = []) :
    (exec O (compensate cfg x) s h).2.2 = h ++ [⟨.fail x.message, O h (.fail x.message)⟩] := by
  change (exec O (Coroutine.bind (ofExcept (O h (.fail x.message))) _) _ _).2.2 = _
  cases O h (.fail x.message) with
  | error y => rfl
  | ok v =>
    change (exec O (Coroutine.bind (s.rollbacks.reverse.forM (attempt cfg)) _) _ _).2.2 = _
    rw [hs]
    rfl

namespace MigrationMessage
variable {m : MigrationMessage}

theorem execute_extends (m : MigrationMessage) (cfg : Settings) (O : World) (h : Trace) :
    h ++ [⟨.transition .run .preflight 5, O h (.transition .run .preflight 5)⟩] <+:
      (m.execute cfg O h).2.2 := by
  obtain ⟨next, hnext, -⟩ := settle_run (migrationType m.live) cfg (EngineState.init m.context)
  rw [execute, exec_settle, hnext]
  exact exec_extends O _ _ _

theorem execute_of_error (hx : O h (.transition .run .preflight 5) = .error x) :
    (m.execute cfg O h).2.2 = h ++ [⟨.transition .run .preflight 5, .error x⟩] ++
      [⟨.fail x.message,
        O (h ++ [⟨.transition .run .preflight 5, .error x⟩]) (.fail x.message)⟩] := by
  obtain ⟨next, hnext, herr⟩ :=
    settle_run (migrationType m.live) cfg (EngineState.init m.context)
  rw [execute, exec_settle, hnext]
  dsimp only
  rw [hx, herr]
  exact exec_compensate_unregistered rfl

theorem row_of_completed {b : Bool} (hb : (m.execute cfg O []).1 = .ok b) :
    (record (m.execute cfg O []).2.2).state = .done ∨
      (record (m.execute cfg O []).2.2).state = .failed := by
  rw [record_state]
  cases b with
  | true =>
    have hrep := report (migrationType m.live) cfg m.context O
    rw [show ((migrationType m.live).migrate cfg m.context O).result = .ok true from hb] at hrep
    exact .inl (Finished.done hrep).row
  | false =>
    obtain ⟨x, s₀, h₀, hraise, hrb⟩ :=
      @rolledBack_of_false (migrationType m.live) cfg m.context O hb
    obtain ⟨walked, -, hat⟩ := hrb.at_failed (underway_of_raises hraise)
    exact .inr hat.row

/-- Once the first write is made, the row is not terminal any more. -/
theorem not_leftAlone (hrow : (record h).state = .done ∨ (record h).state = .failed)
    (hO : O h (.transition .run .preflight 5) = .ok ()) :
    ¬ LeftAlone eff status h (m.execute cfg O h).2.2 := by
  intro hu
  have hext := m.execute_extends cfg O h
  rw [hO] at hext
  have hrecord := (hu _ (List.prefix_append _ _) hext).row
  rw [record_snoc] at hrecord
  have hstate : MigrationState.preflight = (record h).state :=
    congrArg RowRecord.state hrecord
  rcases hrow with hd | hd
  · rw [hd] at hstate
    cases hstate
  · rw [hd] at hstate
    cases hstate

/-- A record of a failure that changes nothing is refused or says what the row says. -/
theorem record_fail_iff (r : Except PyException Unit) (text : String) :
    (record h).apply ⟨.fail text, r⟩ = record h ↔
      r.isOk = false ∨ (record h).state = .failed ∧ (record h).error = some text := by
  generalize record h = row
  obtain ⟨state, progress, error⟩ := row
  cases r with
  | error y => exact iff_of_true rfl (.inl rfl)
  | ok v => simp [RowRecord.apply, Except.isOk, Except.toBool, eq_comm]

theorem leftAlone_iff_of_error (hx : O h (.transition .run .preflight 5) = .error x) :
    LeftAlone eff status h (m.execute cfg O h).2.2 ↔
      (record h).apply ⟨.fail x.message, O (h ++ [⟨.transition .run .preflight 5, .error x⟩])
        (.fail x.message)⟩ = record h := by
  have hfirst : Unchanged eff status h (h ++ [⟨.transition .run .preflight 5, .error x⟩]) :=
    (Unchanged.refl eff status h).write (.inl ⟨_, _, _, rfl⟩) rfl
  rw [m.execute_of_error hx]
  constructor
  · intro hu
    have hend := (hu _ ((List.prefix_append _ _).trans (List.prefix_append _ _))
      List.prefix_rfl).row
    rwa [record_snoc, hfirst.row] at hend
  · intro hrow pre hpre hext
    rcases List.prefix_concat_iff.1 hext with rfl | hext
    · exact hfirst.write (.inr ⟨_, rfl⟩) (by rwa [hfirst.row])
    · rcases List.prefix_concat_iff.1 hext with rfl | hext
      · exact hfirst
      · rw [hext.eq_of_length_le hpre.length_le]
        exact .refl eff status h

end MigrationMessage

theorem redelivery_harmless_iff (cfg : Settings) (m : MigrationMessage) (O : World)
    (eff : Effects) (status : String) (b : Bool) (hb : (m.execute cfg O []).1 = .ok b) :
    LeftAlone eff status (m.execute cfg O []).2.2
        (m.execute cfg O (m.execute cfg O []).2.2).2.2 ↔
      TurnedAway O (m.execute cfg O []).2.2 := by
  have hrow := m.row_of_completed hb
  generalize (m.execute cfg O []).2.2 = h at hrow
  cases hx : O h (.transition .run .preflight 5) with
  | ok v =>
    refine iff_of_false (MigrationMessage.not_leftAlone hrow hx) ?_
    rintro ⟨x, hq, -⟩
    rw [hx] at hq
    cases hq
  | error x =>
    rw [MigrationMessage.leftAlone_iff_of_error hx, MigrationMessage.record_fail_iff]
    constructor
    · exact fun hq => ⟨x, hx, hq⟩
    · rintro ⟨y, hy, hq⟩
      obtain rfl : x = y := Except.error.inj (hx.symm.trans hy)
      exact hq

def message (live : Bool) : MigrationMessage where
  migrationId := "m"
  vmId := "vm"
  sourceCluster := "cluster-a"
  destCluster := "cluster-b"
  options := [("dest_host", some "compute-2")]
  live

/-- The database is lost once the migration is done. -/
def unrecordedAfterwards : World
  | h, .transition task state progress =>
    if rowState h = .done then .error ⟨.other, "connection refused"⟩
    else cooperative twoVolumes h (.transition task state progress)
  | h, .fail error =>
    if rowState h = .done then .error ⟨.other, "connection refused"⟩
    else cooperative twoVolumes h (.fail error)
  | h, c => cooperative twoVolumes h c

theorem redelivery_harmless_without_database :
    LeftAlone .atomic "ACTIVE" ((message true).execute settings unrecordedAfterwards []).2.2
      ((message true).execute settings unrecordedAfterwards
        ((message true).execute settings unrecordedAfterwards []).2.2).2.2 :=
  (redelivery_harmless_iff settings (message true) unrecordedAfterwards .atomic "ACTIVE" true
    (by decide +kernel)).2
      ⟨⟨.other, "connection refused"⟩, by decide +kernel, .inl (by decide +kernel)⟩

def deletedOnSource : World
  | h, .getVm vmId =>
    if Has VmDeleted h then .error ⟨.vmNotFound, s!"VM {vmId} not found"⟩
    else cooperative twoVolumes h (.getVm vmId)
  | h, c => cooperative twoVolumes h c

/-- The second run finds no VM, and the row of a finished migration ends as a failed one. -/
theorem not_redelivery_harmless :
    ((message false).execute settings deletedOnSource []).1 = .ok true ∧
      rowState ((message false).execute settings deletedOnSource []).2.2 = .done ∧
      rowState ((message false).execute settings deletedOnSource
        ((message false).execute settings deletedOnSource []).2.2).2.2 = .failed ∧
      ¬ LeftAlone .atomic "ACTIVE" ((message false).execute settings deletedOnSource []).2.2
        ((message false).execute settings deletedOnSource
          ((message false).execute settings deletedOnSource []).2.2).2.2 := by
  refine ⟨by decide +kernel, by decide +kernel, by decide +kernel, fun hu => ?_⟩
  have hend := (hu _ (exec_extends _ _ _ _) List.prefix_rfl).row
  revert hend
  decide +kernel

end NovaFederation
