import NovaFederation.Redelivery
import NovaFederation.RowHistory

/-!
# The tables of migrations and their events

`Migration` is a row as the entry points create it and the writers update it, and `Execution`
what an engine is created with. The engine writes the row in the transactions of `_transition`
and `_fail`, the abort endpoint in one of its own. `Migration.apply` is `RowRecord.apply` with
the column `finished_at` beside it.
-/

namespace NovaFederation
open History

/-- The arguments with which `_run_migration` or `_execute_migration` creates an engine. -/
structure Execution where
  migrationId : String
  vmId : String
  sourceClusterId : String
  destClusterId : String
  type : MigrationType
  options : Options
  deriving DecidableEq

def Execution.context (e : Execution) : MigrationContext where
  migrationId := e.migrationId
  vmId := e.vmId
  sourceClusterId := e.sourceClusterId
  destClusterId := e.destClusterId
  migrationType := e.type
  options := e.options

abbrev Timestamp := ℕ

structure Migration where
  id : String
  vmId : String
  vmName : Option String := none
  sourceClusterId : String
  destClusterId : String
  type : MigrationType
  state : MigrationState := .pending
  progressPct : ℚ := 0
  error : Option String := none
  options : Options
  initiatedBy : Option String := none
  finishedAt : Option Timestamp := none
  deriving DecidableEq

structure MigrationEvent where
  migrationId : String
  state : String
  message : String
  progress : ℚ
  deriving DecidableEq

namespace Migration

def execution (m : Migration) : Execution where
  migrationId := m.id
  vmId := m.vmId
  sourceClusterId := m.sourceClusterId
  destClusterId := m.destClusterId
  type := m.type
  options := m.options

/-- The row in the columns that the engine writes but for `finished_at`. -/
def record (m : Migration) : RowRecord := ⟨m.state, m.progressPct, m.error⟩

/-- The update of `_transition`. Only `done` is a time to remember. -/
def transition (m : Migration) (state : MigrationState) (progress : ℚ) (now : Timestamp) :
    Migration :=
  { m with
    state
    progressPct := progress
    finishedAt := if state = .done then some now else m.finishedAt }

def fail (m : Migration) (error : String) (now : Timestamp) : Migration :=
  { m with state := .failed, error := some error, finishedAt := some now }

def abort (m : Migration) : Migration :=
  { m with state := .aborted, error := some "Aborted by user" }

/-- What a call of the engine that is answered at a time makes of the row. -/
def apply (m : Migration) (now : Timestamp) (e : CallEvent) : Migration :=
  match e with
  | ⟨.transition _ state progress, .ok _⟩ => m.transition state progress now
  | ⟨.fail error, .ok _⟩ => m.fail error now
  | _ => m

theorem record_apply (m : Migration) (now : Timestamp) (e : CallEvent) :
    (m.apply now e).record = m.record.apply e := by
  obtain ⟨c, r⟩ := e
  cases c <;> cases r <;> rfl

theorem state_apply (m : Migration) (now : Timestamp) (e : CallEvent) :
    (m.apply now e).state = rowApply m.state e := by
  obtain ⟨c, r⟩ := e
  cases c <;> cases r <;> rfl

theorem apply_of_not_commits {e : CallEvent} (he : commits e = false) (m : Migration)
    (now : Timestamp) : m.apply now e = m := by
  unfold apply
  split
  · cases he
  · cases he
  · rfl

theorem vmId_apply (m : Migration) (now : Timestamp) (e : CallEvent) :
    (m.apply now e).vmId = m.vmId := by
  unfold apply
  split <;> rfl

end Migration

/-- The event that `_transition` adds in the transaction of its update. -/
def MigrationEvent.entered (migrationId : String) (state : MigrationState) (progress : ℚ) :
    MigrationEvent where
  migrationId
  state := state.value
  message := s!"Entered state {state.value}"
  progress

def eventOf (migrationId : String) (e : CallEvent) : List MigrationEvent :=
  match e with
  | ⟨.transition _ state progress, .ok _⟩ => [.entered migrationId state progress]
  | _ => []

end NovaFederation
