import NovaFederation.ActiveMigrations

/-!
# Rows and executions

An entry point that accepts a migration ought to leave one row and one execution of it. The two
REST endpoints do both. The scheduler inserts a row and leaves it at that; the gRPC methods queue
a task and insert nothing.
-/

namespace NovaFederation
open Coroutine History Schedule

inductive EntryPoint
  | migrateVm (vmId : String) (body : MigrateRequest)
  | liveMigrateVm (vmId : String) (body : MigrateRequest)
  | triggerRebalance (source dest : ClusterSnapshot) (action : String)
  | executeMigration (request : MigrationRequest)
  | executeLiveMigration (request : MigrationRequest)

namespace EntryPoint

def isRest : EntryPoint → Bool
  | .migrateVm _ _ => true
  | .liveMigrateVm _ _ => true
  | _ => false

def serve (cfg : Settings) : EntryPoint → Intake (Option String)
  | .migrateVm vmId body => do
    let migrationId ← NovaFederation.migrateVm cfg vmId body
    pure (some migrationId)
  | .liveMigrateVm vmId body => do
    let migrationId ← NovaFederation.liveMigrateVm cfg vmId body
    pure (some migrationId)
  | .triggerRebalance source dest action => Scheduler.triggerRebalance source dest action
  | .executeMigration request => do
    let migrationId ← CNFControlServicer.executeMigration request
    pure (some migrationId)
  | .executeLiveMigration request => do
    let migrationId ← CNFControlServicer.executeLiveMigration request
    pure (some migrationId)

end EntryPoint

def MigrationMessage.execution (m : MigrationMessage) : Execution where
  migrationId := m.migrationId
  vmId := m.vmId
  sourceClusterId := m.sourceCluster
  destClusterId := m.destCluster
  type := migrationType m.live
  options := m.options

theorem MigrationMessage.execution_context (m : MigrationMessage) :
    m.execution.context = m.context := rfl

def queuedTask : IntakeEvent → Option Execution
  | ⟨.delay m, .ok _⟩ => some m.execution
  | _ => none

/-- The background tasks of the API and everything that has been asked of the database and the
broker. -/
structure Ledger where
  tasks : List Execution := []
  history : History PyException IntakeCall IntakeCall.Reply := []

namespace Ledger
variable (s : Ledger)

def rows : List Migration := s.history.filterMap insertedRow

def executions : List Execution := s.tasks ++ s.history.filterMap queuedTask

end Ledger

abbrev IntakeWorld := Oracle PyException IntakeCall IntakeCall.Reply

def keyed (O : IntakeWorld) : IntakeWorld := fun h =>
  primaryKey ((h.filterMap insertedRow).map Migration.id) (O h)

namespace Ledger

def outcome (cfg : Settings) (O : IntakeWorld) (s : Ledger) (entry : EntryPoint) :
    Outcome (List Execution) PyException IntakeCall IntakeCall.Reply (Option String) :=
  exec (keyed O) (entry.serve cfg) s.tasks s.history

def serve (cfg : Settings) (O : IntakeWorld) (s : Ledger) (entry : EntryPoint) : Option Ledger :=
  some ⟨(s.outcome cfg O entry).2.1, (s.outcome cfg O entry).2.2⟩

def reported (cfg : Settings) (O : IntakeWorld) (s : Ledger) (entry : EntryPoint) :
    Option String :=
  (s.outcome cfg O entry).1.toOption.join

/-- The pending rows and the executions are in bijection, field by field. -/
structure Matched (s : Ledger) : Prop where
  pending : ∀ row ∈ s.rows, row.state = .pending
  nodup : (s.rows.map Migration.id).Nodup
  perm : (s.rows.map Migration.execution).Perm s.executions

/-- A migration that is reported has one row and one execution, which agree, and there are no
others. -/
def Corresponding (cfg : Settings) (O : IntakeWorld) (s : Ledger) (entry : EntryPoint)
    (s' : Ledger) : Prop :=
  s'.Matched ∧ ∀ migrationId ∈ s.reported cfg O entry,
    (s'.rows.filter (·.id = migrationId)).length = 1 ∧
      (s'.rows.filter (·.id = migrationId)).map Migration.execution =
        s'.executions.filter (·.migrationId = migrationId)

def ByRest (cfg : Settings) (O : IntakeWorld) (s : Ledger) (entry : EntryPoint)
    (_ : Ledger) : Prop :=
  (s.reported cfg O entry).isSome = true → entry.isRest = true

end Ledger

/-! ### One call -/

inductive Served (s s' : Ledger) (entry : EntryPoint) : Option String → Prop
  | refused (hrows : s'.rows = s.rows) (hexec : s'.executions = s.executions) :
    Served s s' entry none
  | both (row : Migration) (hpending : row.state = .pending)
    (hfresh : row.id ∉ s.rows.map Migration.id) (hrows : s'.rows = s.rows ++ [row])
    (hexec : s'.executions.Perm (row.execution :: s.executions)) (hrest : entry.isRest = true) :
    Served s s' entry (some row.id)
  | row (row : Migration) (hrows : s'.rows = s.rows ++ [row])
    (hexec : s'.executions = s.executions) (hrest : entry.isRest = false) :
    Served s s' entry (some row.id)
  | execution (e : Execution) (hrows : s'.rows = s.rows)
    (hexec : s'.executions = s.executions ++ [e]) (hrest : entry.isRest = false) :
    Served s s' entry (some e.migrationId)

section Calls
variable {cfg : Settings} {O : IntakeWorld} {tasks : List Execution}
  {h : History PyException IntakeCall IntakeCall.Reply}

theorem fresh_of_inserted {row : Migration} {v : Unit} (hO : keyed O h (.insert row) = .ok v) :
    row.id ∉ (h.filterMap insertedRow).map Migration.id := by
  intro hmem
  change (if row.id ∈ _ then _ else _) = _ at hO
  rw [if_pos hmem] at hO
  cases hO

variable (cfg O tasks h)

theorem exec_acceptMigration (vmId : String) (body : MigrateRequest) (live : Bool) :
    (∃ e t, exec (keyed O) (acceptMigration cfg vmId body live) tasks h =
          (.error e, tasks, h ++ t) ∧
        t.filterMap insertedRow = [] ∧ t.filterMap queuedTask = []) ∨
      ∃ row t, exec (keyed O) (acceptMigration cfg vmId body live) tasks h =
          (.ok row.id, tasks ++ [row.execution], h ++ t) ∧ row.state = .pending ∧
        row.id ∉ (h.filterMap insertedRow).map Migration.id ∧
        t.filterMap insertedRow = [row] ∧ t.filterMap queuedTask = [] := by
  unfold acceptMigration
  cases hid : keyed O h .uuid4 with
  | error e =>
    rw [exec_bind, exec_perform_of_error hid]
    exact .inl ⟨e, _, rfl, rfl, rfl⟩
  | ok migrationId =>
    rw [exec_bind, exec_perform_of_ok hid]
    dsimp only
    generalize hrow : Migration.mk _ _ _ _ _ _ _ _ _ _ _ _ = row
    cases hins : keyed O (h ++ [⟨.uuid4, .ok migrationId⟩]) (.insert row) with
    | error e =>
      rw [exec_bind, exec_perform_of_error hins]
      refine .inl ⟨e, [⟨.uuid4, .ok migrationId⟩, ⟨.insert row, .error e⟩], ?_, rfl, rfl⟩
      rw [List.append_assoc]
      rfl
    | ok v =>
      rw [exec_bind, exec_perform_of_ok hins]
      have hfresh := fresh_of_inserted hins
      subst hrow
      refine .inr ⟨_, [⟨.uuid4, .ok migrationId⟩, ⟨.insert _, .ok v⟩], ?_, rfl, ?_, rfl, rfl⟩
      · rw [List.append_assoc]
        rfl
      · have hold : (h ++ [(⟨.uuid4, .ok migrationId⟩ : IntakeEvent)]).filterMap insertedRow =
            h.filterMap insertedRow := by
          rw [List.filterMap_append]
          exact List.append_nil _
        rw [hold] at hfresh
        exact hfresh

theorem exec_triggerRebalance (source dest : ClusterSnapshot) (action : String) :
    (∃ r t, exec (keyed O) (Scheduler.triggerRebalance source dest action) tasks h =
          (r, tasks, h ++ t) ∧ (∀ v, r = .ok v → v = none) ∧
        t.filterMap insertedRow = [] ∧ t.filterMap queuedTask = []) ∨
      ∃ row t, exec (keyed O) (Scheduler.triggerRebalance source dest action) tasks h =
          (.ok (some row.id), tasks, h ++ t) ∧
        t.filterMap insertedRow = [row] ∧ t.filterMap queuedTask = [] := by
  unfold Scheduler.triggerRebalance
  cases hvms : keyed O h .listVms with
  | error e =>
    rw [exec_bind, exec_perform_of_error hvms]
    exact .inl ⟨_, _, rfl, by simp, rfl, rfl⟩
  | ok vms =>
    rw [exec_bind, exec_perform_of_ok hvms]
    dsimp only
    cases vms.filter (·.status == "ACTIVE") with
    | nil => exact .inl ⟨.ok none, [⟨.listVms, .ok vms⟩], rfl, by simp, rfl, rfl⟩
    | cons vm _ =>
      dsimp only
      cases hid : keyed O (h ++ [⟨.listVms, .ok vms⟩]) .uuid4 with
      | error e =>
        rw [exec_bind, exec_perform_of_error hid]
        exact .inl ⟨.error e, [⟨.listVms, .ok vms⟩, ⟨.uuid4, .error e⟩], by simp, by simp, rfl, rfl⟩
      | ok migrationId =>
        rw [exec_bind, exec_perform_of_ok hid]
        dsimp only
        generalize hrow : Scheduler.rebalanceRow migrationId vm source dest action = row
        have hkey : row.id = migrationId := by
          rw [← hrow]
          rfl
        cases hins : keyed O (h ++ [⟨.listVms, .ok vms⟩] ++ [⟨.uuid4, .ok migrationId⟩])
            (.insert row) with
        | error e =>
          rw [exec_bind, exec_perform_of_error hins]
          refine .inl ⟨.error e, [⟨.listVms, .ok vms⟩, ⟨.uuid4, .ok migrationId⟩,
            ⟨.insert row, .error e⟩], ?_, by simp, rfl, rfl⟩
          rw [List.append_assoc, List.append_assoc]
          rfl
        | ok v =>
          rw [exec_bind, exec_perform_of_ok hins]
          refine .inr ⟨row, [⟨.listVms, .ok vms⟩, ⟨.uuid4, .ok migrationId⟩,
            ⟨.insert row, .ok v⟩], ?_, rfl, rfl⟩
          rw [hkey, List.append_assoc, List.append_assoc]
          rfl

theorem exec_queueMigration (request : MigrationRequest) (live : Bool) :
    (∃ e t, exec (keyed O) (queueMigration request live) tasks h = (.error e, tasks, h ++ t) ∧
        t.filterMap insertedRow = [] ∧ t.filterMap queuedTask = []) ∨
      ∃ e t, exec (keyed O) (queueMigration request live) tasks h =
          (.ok e.migrationId, tasks, h ++ t) ∧
        t.filterMap insertedRow = [] ∧ t.filterMap queuedTask = [e] := by
  unfold queueMigration
  generalize hm : MigrationMessage.mk _ _ _ _ _ _ = m
  cases hq : keyed O h (.delay m) with
  | error e =>
    rw [exec_bind, exec_perform_of_error hq]
    exact .inl ⟨e, _, rfl, rfl, rfl⟩
  | ok v =>
    rw [exec_bind, exec_perform_of_ok hq]
    have hid : m.execution.migrationId = request.migrationId := by
      rw [← hm]
      rfl
    refine .inr ⟨m.execution, [⟨.delay m, .ok v⟩], ?_, rfl, rfl⟩
    rw [hid]
    rfl

end Calls

namespace Ledger
variable {cfg : Settings} {O : IntakeWorld} {s s' : Ledger} {entry : EntryPoint}

theorem served_of_outcome {r : Except PyException (Option String)} {tasks : List Execution}
    {t : List IntakeEvent} (hout : s.outcome cfg O entry = (r, tasks, s.history ++ t))
    (h : s.serve cfg O entry = some s') :
    s'.tasks = tasks ∧ s'.rows = s.rows ++ t.filterMap insertedRow ∧
      s'.executions = tasks ++ (s.history.filterMap queuedTask ++ t.filterMap queuedTask) ∧
      s.reported cfg O entry = r.toOption.join := by
  unfold serve at h
  rw [hout] at h
  obtain rfl := Option.some.inj h
  refine ⟨rfl, ?_, ?_, ?_⟩
  · simp [rows, List.filterMap_append]
  · simp [executions, List.filterMap_append]
  · rw [reported, hout]

theorem refused_of_outcome {r : Except PyException (Option String)} {t : List IntakeEvent}
    (hout : s.outcome cfg O entry = (r, s.tasks, s.history ++ t)) (hr : r.toOption.join = none)
    (hrows : t.filterMap insertedRow = []) (hqueue : t.filterMap queuedTask = [])
    (h : s.serve cfg O entry = some s') : Served s s' entry (s.reported cfg O entry) := by
  obtain ⟨-, hrows', hexec, hrep⟩ := served_of_outcome hout h
  rw [hrep, hr]
  refine .refused ?_ ?_
  · simpa [hrows] using hrows'
  · simpa [hqueue, executions] using hexec

theorem served_of_acceptMigration {vmId : String} {body : MigrateRequest} {live : Bool}
    (hentry : entry.serve cfg = acceptMigration cfg vmId body live >>= fun id => pure (some id))
    (hrest : entry.isRest = true) (h : s.serve cfg O entry = some s') :
    Served s s' entry (s.reported cfg O entry) := by
  rcases exec_acceptMigration cfg O s.tasks s.history vmId body live with
    ⟨e, t, hex, hrows, hqueue⟩ | ⟨row, t, hex, hpending, hfresh, hrows, hqueue⟩
  · have hout : s.outcome cfg O entry = (.error e, s.tasks, s.history ++ t) := by
      rw [outcome, hentry, exec_bind, hex]
    exact refused_of_outcome hout rfl hrows hqueue h
  · have hout : s.outcome cfg O entry =
        (.ok (some row.id), s.tasks ++ [row.execution], s.history ++ t) := by
      rw [outcome, hentry, exec_bind, hex]
      rfl
    obtain ⟨-, hr, hx, hrep⟩ := served_of_outcome hout h
    rw [hrep]
    refine .both row hpending hfresh ?_ ?_ hrest
    · rw [hr, hrows]
    · rw [hx, hqueue, executions, List.append_nil, List.append_assoc]
      exact List.perm_middle

theorem served_of_queueMigration {request : MigrationRequest} {live : Bool}
    (hentry : entry.serve cfg = queueMigration request live >>= fun id => pure (some id))
    (hrest : entry.isRest = false) (h : s.serve cfg O entry = some s') :
    Served s s' entry (s.reported cfg O entry) := by
  rcases exec_queueMigration O s.tasks s.history request live with
    ⟨e, t, hex, hrows, hqueue⟩ | ⟨e, t, hex, hrows, hqueue⟩
  · have hout : s.outcome cfg O entry = (.error e, s.tasks, s.history ++ t) := by
      rw [outcome, hentry, exec_bind, hex]
    exact refused_of_outcome hout rfl hrows hqueue h
  · have hout : s.outcome cfg O entry =
        (.ok (some e.migrationId), s.tasks, s.history ++ t) := by
      rw [outcome, hentry, exec_bind, hex]
      rfl
    obtain ⟨-, hr, hx, hrep⟩ := served_of_outcome hout h
    rw [hrep]
    refine .execution e ?_ ?_ hrest
    · simpa [hrows] using hr
    · rw [hx, hqueue, executions, List.append_assoc]

theorem served_of_triggerRebalance {source dest : ClusterSnapshot} {action : String}
    (h : s.serve cfg O (.triggerRebalance source dest action) = some s') :
    Served s s' (.triggerRebalance source dest action)
      (s.reported cfg O (.triggerRebalance source dest action)) := by
  rcases exec_triggerRebalance O s.tasks s.history source dest action with
    ⟨r, t, hex, hnone, hrows, hqueue⟩ | ⟨row, t, hex, hrows, hqueue⟩
  · have hout : s.outcome cfg O (.triggerRebalance source dest action) =
        (r, s.tasks, s.history ++ t) := hex
    have hjoin : r.toOption.join = none := by
      rcases r with e | v
      · rfl
      · rw [hnone v rfl]
        rfl
    exact refused_of_outcome hout hjoin hrows hqueue h
  · have hout : s.outcome cfg O (.triggerRebalance source dest action) =
        (.ok (some row.id), s.tasks, s.history ++ t) := hex
    obtain ⟨-, hr, hx, hrep⟩ := served_of_outcome hout h
    rw [hrep]
    refine .row row ?_ ?_ rfl
    · rw [hr, hrows]
    · simpa [hqueue, executions] using hx

theorem served (h : s.serve cfg O entry = some s') :
    Served s s' entry (s.reported cfg O entry) := by
  cases entry with
  | migrateVm vmId body => exact served_of_acceptMigration rfl rfl h
  | liveMigrateVm vmId body => exact served_of_acceptMigration rfl rfl h
  | triggerRebalance source dest action => exact served_of_triggerRebalance h
  | executeMigration request => exact served_of_queueMigration rfl rfl h
  | executeLiveMigration request => exact served_of_queueMigration rfl rfl h

/-! ### Runs -/

theorem filter_id {rows : List Migration} (hn : (rows.map Migration.id).Nodup) {row : Migration}
    (hrow : row ∈ rows) : rows.filter (·.id = row.id) = [row] := by
  induction rows with
  | nil => cases hrow
  | cons first rows ih =>
    rw [List.map_cons, List.nodup_cons] at hn
    obtain ⟨hfirst, hn⟩ := hn
    rcases List.mem_cons.1 hrow with rfl | hrow
    · have hnone : rows.filter (·.id = row.id) = [] := by
        rw [List.filter_eq_nil_iff]
        intro other hother heq
        rw [decide_eq_true_eq] at heq
        exact hfirst (heq ▸ List.mem_map_of_mem hother)
      simp [hnone]
    · have hne : ¬ first.id = row.id := fun heq => hfirst (heq ▸ List.mem_map_of_mem hrow)
      simp [hne, ih hn hrow]

theorem Matched.filter (hm : s.Matched) {row : Migration} (hrow : row ∈ s.rows) :
    s.executions.filter (·.migrationId = row.id) = [row.execution] := by
  have hperm := hm.perm.filter (·.migrationId = row.id)
  rw [List.filter_map] at hperm
  change ((s.rows.filter (·.id = row.id)).map Migration.execution).Perm _ at hperm
  rw [filter_id hm.nodup hrow] at hperm
  exact (List.singleton_perm.1 hperm).symm

/-- A call to a REST endpoint, and a call that is refused, keep the bijection. -/
theorem Matched.serve (hm : s.Matched) (h : s.serve cfg O entry = some s')
    (hrest : s.ByRest cfg O entry s') : s.Corresponding cfg O entry s' := by
  have hs := served h
  unfold Corresponding
  unfold ByRest at hrest
  generalize s.reported cfg O entry = report at hs hrest ⊢
  cases hs with
  | refused hrows hexec =>
    refine ⟨⟨?_, ?_, ?_⟩, by simp⟩
    · rw [hrows]
      exact hm.pending
    · rw [hrows]
      exact hm.nodup
    · rw [hrows, hexec]
      exact hm.perm
  | both row hpending hfresh hrows hexec _ =>
    have hm' : s'.Matched := by
      refine ⟨?_, ?_, ?_⟩
      · rw [hrows]
        intro other hother
        rcases List.mem_append.1 hother with hother | hother
        · exact hm.pending other hother
        · obtain rfl := List.mem_singleton.1 hother
          exact hpending
      · rw [hrows, List.map_append, List.map_singleton]
        exact List.nodup_append.2 ⟨hm.nodup, List.nodup_singleton _, by
          intro id hid other hother
          obtain rfl := List.mem_singleton.1 hother
          rintro rfl
          exact hfresh hid⟩
      · rw [hrows, List.map_append, List.map_singleton]
        exact (List.perm_append_singleton _ _).trans ((hm.perm.cons _).trans hexec.symm)
    have hmem : row ∈ s'.rows := by
      rw [hrows]
      simp
    refine ⟨hm', fun migrationId hid => ?_⟩
    obtain rfl : row.id = migrationId := Option.some.inj hid
    rw [filter_id hm'.nodup hmem, hm'.filter hmem]
    exact ⟨rfl, rfl⟩
  | row row _ _ hno => simp [hno] at hrest
  | execution e _ _ hno => simp [hno] at hrest

/-- A row or an execution on its own breaks the bijection. -/
theorem Matched.rest_of_serve (hm : s.Matched) (h : s.serve cfg O entry = some s')
    (hm' : s'.Matched) : s.ByRest cfg O entry s' := by
  have hlen := hm.perm.length_eq
  have hlen' := hm'.perm.length_eq
  rw [List.length_map] at hlen hlen'
  intro hreport
  have hs := served h
  generalize s.reported cfg O entry = report at hs hreport
  cases hs with
  | refused hrows hexec => cases hreport
  | both row hpending hfresh hrows hexec hrest => exact hrest
  | row row hrows hexec hrest =>
    rw [hrows, hexec, List.length_append, List.length_singleton] at hlen'
    omega
  | execution e hrows hexec hrest =>
    rw [hrows, hexec, List.length_append, List.length_singleton] at hlen'
    omega

end Ledger

open Ledger in
theorem rows_correspond_iff (cfg : Settings) (O : IntakeWorld) (entries : List EntryPoint) :
    Along (serve cfg O) (Corresponding cfg O) {} entries ↔
      Along (serve cfg O) (ByRest cfg O) {} entries := by
  have hstart : ({} : Ledger).Matched :=
    ⟨by simp [rows], by simp [rows], by simp [rows, executions]⟩
  constructor
  · intro hc
    refine hc.imp Matched ?_ hstart
    intro s entry s' h hm hc
    exact ⟨hm.rest_of_serve h hc.1, hc.1⟩
  · intro hrest
    refine hrest.imp Matched ?_ hstart
    intro s entry s' h hm hrest
    have hc := hm.serve h hrest
    exact ⟨hc, hc.1⟩

instance (s : Ledger) : Decidable s.Matched :=
  decidable_of_iff ((∀ row ∈ s.rows, row.state = .pending) ∧ (s.rows.map Migration.id).Nodup ∧
    (s.rows.map Migration.execution).Perm s.executions)
    ⟨fun ⟨hp, hn, he⟩ => ⟨hp, hn, he⟩, fun hm => ⟨hm.pending, hm.nodup, hm.perm⟩⟩

instance (cfg : Settings) (O : IntakeWorld) (s : Ledger) (entry : EntryPoint) (s' : Ledger) :
    Decidable (s.Corresponding cfg O entry s') :=
  inferInstanceAs (Decidable (s'.Matched ∧ ∀ migrationId ∈ s.reported cfg O entry,
    (s'.rows.filter (·.id = migrationId)).length = 1 ∧
      (s'.rows.filter (·.id = migrationId)).map Migration.execution =
        s'.executions.filter (·.migrationId = migrationId)))

open Ledger in
/-- The scheduler queues a migration that nobody executes, and a task is queued for a migration
that has no row. -/
theorem not_rows_correspond :
    ¬ Along (serve settings fun _ => intakeAnswers "m") (Corresponding settings fun _ =>
        intakeAnswers "m") {} [.triggerRebalance ⟨"a", "fra", "", 90, 0, 0, 1⟩
          ⟨"b", "iad", "", 10, 0, 0, 0⟩ "live_migrate"] ∧
      ¬ Along (serve settings fun _ => intakeAnswers "m") (Corresponding settings fun _ =>
        intakeAnswers "m") {} [.executeMigration ⟨"vm", "a", "b", "m", []⟩] := by
  decide +kernel

end NovaFederation
