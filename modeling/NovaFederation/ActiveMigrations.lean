import NovaFederation.Intake

/-!
# Active migrations of one VM

Requests to the two REST endpoints and passes of the scheduler insert rows, each at the speed of
its own awaits, and engines write the rows that there are. The table refuses a row whose `id` is
taken and looks at nothing else, so a second active row of a VM may be inserted beside the first.
An engine leaves the rows it has finished alone, but a second one may be started on a finished row,
by a message that is delivered again or by one that names the row, and it enters the row anew.
-/

namespace NovaFederation
open Coroutine History Schedule

def Migration.active (m : Migration) : Bool := !m.state.isTerminal

/-- An engine that has been started: the row that it writes, and what it will still do. -/
structure EngineRun where
  migrationId : String
  rest : Trace

abbrev IntakeJob := Suspended (List Execution) PyException IntakeCall IntakeCall.Reply Unit

abbrev IntakeEvent := Event PyException IntakeCall IntakeCall.Reply

abbrev IntakeAnswers := Answers PyException IntakeCall IntakeCall.Reply

structure ControlPlane where
  rows : List Migration := []
  engines : List EngineRun := []
  tasks : List Execution := []
  jobs : List IntakeJob := []

inductive Arrival
  | migrate (vmId : String) (body : MigrateRequest)
  | liveMigrate (vmId : String) (body : MigrateRequest)
  | schedule

inductive TrafficAct
  | accept (arrival : Arrival)
  | answer (i : ℕ) (answers : IntakeAnswers)
  | launch (execution : Execution) (O : World)
  | engine (i : ℕ) (now : Timestamp)

def Arrival.job (cfg : Settings) (eval : TriggerEval) : Arrival → Intake Unit
  | .migrate vmId body => do
    let _ ← migrateVm cfg vmId body
  | .liveMigrate vmId body => do
    let _ ← liveMigrateVm cfg vmId body
  | .schedule => Scheduler.pass eval

def integrityError : PyException := ⟨.other, "duplicate key value"⟩

/-- What the database answers when `ids` are taken. -/
def primaryKey (ids : List String) (answers : IntakeAnswers) :
    (c : IntakeCall) → Except PyException c.Reply
  | .insert row => if row.id ∈ ids then .error integrityError else answers (.insert row)
  | c => answers c

def insertedRow : IntakeEvent → Option Migration
  | ⟨.insert row, .ok _⟩ => some row
  | _ => none

def Migration.update (m : Migration) (migrationId : String) (now : Timestamp) (e : CallEvent) :
    Migration :=
  if m.id = migrationId then m.apply now e else m

namespace ControlPlane
variable (s : ControlPlane)

def ids : List String := s.rows.map Migration.id

def event (job : IntakeJob) (answers : IntakeAnswers) : IntakeEvent :=
  ⟨job.call, primaryKey s.ids answers job.call⟩

def proceed : List Execution × Paused (List Execution) PyException IntakeCall IntakeCall.Reply
    Unit → ControlPlane
  | (tasks, .done _) => { s with tasks }
  | (tasks, .waiting call next) => { s with tasks, jobs := s.jobs ++ [⟨call, next, none⟩] }

def answer (i : ℕ) (answers : IntakeAnswers) : Option ControlPlane :=
  match s.jobs[i]? with
  | some job =>
    let e := s.event job answers
    some ({ s with
      rows := s.rows ++ (insertedRow e).toList
      jobs := s.jobs.eraseIdx i }.proceed
        (settle s.tasks (job.next (primaryKey s.ids answers job.call))))
  | none => none

/-- An engine is started, by a background task or by a message of the broker. Nothing keeps a
second one from the same row. -/
def launch (cfg : Settings) (execution : Execution) (O : World) : ControlPlane :=
  { s with engines := s.engines ++ [⟨execution.migrationId,
      (execution.type.migrate cfg execution.context O).trace⟩] }

def advance (i : ℕ) (now : Timestamp) : Option ControlPlane :=
  match s.engines[i]? with
  | some ⟨migrationId, e :: rest⟩ => some { s with
      rows := s.rows.map (·.update migrationId now e)
      engines := s.engines.set i ⟨migrationId, rest⟩ }
  | _ => none

def step (cfg : Settings) (eval : TriggerEval) (s : ControlPlane) :
    TrafficAct → Option ControlPlane
  | .accept arrival => some (s.proceed (settle s.tasks (arrival.job cfg eval)))
  | .answer i answers => s.answer i answers
  | .launch execution O => some (s.launch cfg execution O)
  | .engine i now => s.advance i now

/-! ### Exclusion -/

/-- Of two rows of one VM, one is in a terminal state. -/
def OnePerVm : Prop :=
  s.rows.Pairwise fun a b => a.active = true → b.active = true → a.vmId ≠ b.vmId

def insertion : TrafficAct → Option Migration
  | .answer i answers =>
    match s.jobs[i]? with
    | some job => insertedRow (s.event job answers)
    | none => none
  | _ => none

/-- The finished rows that a transition puts back into a state that is not terminal. -/
def reopened : TrafficAct → List Migration
  | .engine i _ =>
    match s.engines[i]? with
    | some ⟨migrationId, ⟨.transition _ state _, .ok _⟩ :: _⟩ =>
      s.rows.filter fun row => row.id = migrationId ∧ row.active = false ∧ state.isTerminal = false
    | _ => []
  | _ => []

/-- A row is inserted or reopened only for a VM without an active one. -/
def Unoccupied (a : TrafficAct) (_ : ControlPlane) : Prop :=
  ∀ row ∈ (s.insertion a).toList ++ s.reopened a, ∀ other ∈ s.rows, other.active = true →
    other.vmId ≠ row.vmId

def LaunchedOnce (a : TrafficAct) (_ : ControlPlane) : Prop :=
  match a with
  | .launch execution _ => ∀ run ∈ s.engines, run.migrationId ≠ execution.migrationId
  | _ => True

instance : Decidable s.OnePerVm :=
  inferInstanceAs (Decidable (s.rows.Pairwise fun a b =>
    a.active = true → b.active = true → a.vmId ≠ b.vmId))

end ControlPlane

/-! ### What the entry points insert -/

def IntakeCall.Begins : IntakeCall → Prop
  | .insert row => row.state = .pending
  | _ => True

theorem calls_acceptMigration (cfg : Settings) (vmId : String) (body : MigrateRequest)
    (live : Bool) : Calls IntakeCall.Begins (acceptMigration cfg vmId body live) := by
  unfold acceptMigration
  refine .bind (.perform trivial) fun migrationId => ?_
  exact .bind (.perform rfl) fun _ => .bind (.modify _ _) fun _ => .pure _ _

namespace Scheduler

theorem calls_snapshots (clusters : List Cluster) :
    Calls IntakeCall.Begins (snapshots clusters) := by
  induction clusters with
  | nil => exact .pure _ _
  | cons cluster clusters ih =>
    exact .bind (.perform trivial) fun metric => .bind ih fun rest => .pure _ _

theorem calls_triggerRebalance (source dest : ClusterSnapshot) (action : String) :
    Calls IntakeCall.Begins (triggerRebalance source dest action) := by
  unfold triggerRebalance
  refine .bind (.perform trivial) fun vms => ?_
  cases vms.filter (·.status == "ACTIVE") with
  | nil => exact .pure _ _
  | cons vm _ =>
    refine .bind (.perform trivial) fun migrationId => ?_
    exact .bind (.perform rfl) fun _ => .pure _ _

theorem calls_applyPolicy (eval : TriggerEval) (policy : Policy)
    (snapshots : List ClusterSnapshot) :
    Calls IntakeCall.Begins (applyPolicy eval policy snapshots) := by
  unfold applyPolicy
  dsimp only
  split_ifs
  · exact .pure _ _
  · cases pickDest _ _ with
    | none => exact .pure _ _
    | some dest =>
      refine .forM fun source _ => ?_
      exact .bind (calls_triggerRebalance source dest _) fun _ => .pure _ _

theorem calls_pass (eval : TriggerEval) : Calls IntakeCall.Begins (pass eval) := by
  unfold pass evaluate collectSnapshots loadPolicies
  refine .tryCatch (.bind ?_ fun snapshots => ?_) fun _ => .pure _ _
  · exact .bind (.perform trivial) fun clusters => calls_snapshots clusters
  · refine .bind (.perform trivial) fun policies => .forM fun policy _ => .ite ?_ (.pure _ _)
    exact .tryCatch (calls_applyPolicy eval policy snapshots) fun _ => .pure _ _

end Scheduler

theorem Arrival.calls_job (cfg : Settings) (eval : TriggerEval) (arrival : Arrival) :
    Calls IntakeCall.Begins (arrival.job cfg eval) := by
  cases arrival with
  | migrate vmId body =>
    exact .bind (calls_acceptMigration cfg vmId body false) fun _ => .pure _ _
  | liveMigrate vmId body =>
    exact .bind (calls_acceptMigration cfg vmId body true) fun _ => .pure _ _
  | schedule => exact Scheduler.calls_pass eval

/-! ### One step -/

theorem Migration.active_eq_false {m : Migration} :
    m.active = false ↔ m.state.isTerminal = true := by
  simp [Migration.active]

theorem Migration.id_apply (m : Migration) (now : Timestamp) (e : CallEvent) :
    (m.apply now e).id = m.id := by
  unfold Migration.apply
  split <;> rfl

@[simp] theorem Migration.id_update (m : Migration) (migrationId : String) (now : Timestamp)
    (e : CallEvent) : (m.update migrationId now e).id = m.id := by
  unfold Migration.update
  split_ifs
  · exact m.id_apply now e
  · rfl

@[simp] theorem Migration.vmId_update (m : Migration) (migrationId : String) (now : Timestamp)
    (e : CallEvent) : (m.update migrationId now e).vmId = m.vmId := by
  unfold Migration.update
  split_ifs
  · exact m.vmId_apply now e
  · rfl

theorem Migration.update_of_ne {m : Migration} {migrationId : String} (hne : m.id ≠ migrationId)
    (now : Timestamp) (e : CallEvent) : m.update migrationId now e = m := if_neg hne

namespace ControlPlane
variable {cfg : Settings} {eval : TriggerEval} {s s' : ControlPlane} {a : TrafficAct}

structure Sound (s : ControlPlane) : Prop where
  ids : s.ids.Nodup
  jobs : ∀ job ∈ s.jobs, job.call.Begins ∧ ∀ r, Calls IntakeCall.Begins (job.next r)

theorem sound_start : ({} : ControlPlane).Sound := ⟨List.nodup_nil, by simp⟩

theorem rows_proceed (s : ControlPlane) (q : List Execution × Paused (List Execution)
    PyException IntakeCall IntakeCall.Reply Unit) : (s.proceed q).rows = s.rows := by
  obtain ⟨tasks, r | ⟨call, next⟩⟩ := q
  · rfl
  · rfl

theorem engines_proceed (s : ControlPlane) (q : List Execution × Paused (List Execution)
    PyException IntakeCall IntakeCall.Reply Unit) : (s.proceed q).engines = s.engines := by
  obtain ⟨tasks, r | ⟨call, next⟩⟩ := q
  · rfl
  · rfl

theorem Sound.proceed (hs : s.Sound) {p : Intake Unit} (hp : Calls IntakeCall.Begins p)
    (tasks : List Execution) : (s.proceed (settle tasks p)).Sound := by
  rcases hq : settle tasks p with ⟨tasks', r | ⟨call, next⟩⟩
  · exact ⟨hs.ids, hs.jobs⟩
  · refine ⟨hs.ids, ?_⟩
    intro job hjob
    rcases List.mem_append.1 hjob with hjob | hjob
    · exact hs.jobs job hjob
    · obtain rfl := List.mem_singleton.1 hjob
      exact hp.settle _ _ hq

theorem inserted_fresh {job : IntakeJob} {answers : IntakeAnswers} {row : Migration}
    (hrow : insertedRow (s.event job answers) = some row) : row.id ∉ s.ids := by
  unfold insertedRow event at hrow
  split at hrow
  · next row' _ hev =>
    obtain rfl : row' = row := Option.some.inj hrow
    obtain ⟨hcall, hreply⟩ := Event.mk.inj hev
    rw [hcall] at hreply
    intro htaken
    have hrefused : primaryKey s.ids answers (.insert row') = .error integrityError :=
      if_pos htaken
    rw [hrefused] at hreply
    cases hreply
  · cases hrow

theorem Sound.inserted_active (hs : s.Sound) {job : IntakeJob} (hjob : job ∈ s.jobs)
    {answers : IntakeAnswers} {row : Migration}
    (hrow : insertedRow (s.event job answers) = some row) : row.active = true := by
  unfold insertedRow event at hrow
  split at hrow
  · next row' _ hev =>
    obtain rfl : row' = row := Option.some.inj hrow
    have hcall : job.call = .insert row' := congrArg Event.call hev
    have hbegins := (hs.jobs job hjob).1
    rw [hcall] at hbegins
    have hstate : row'.state = .pending := hbegins
    simp [Migration.active, hstate, MigrationState.isTerminal]
  · cases hrow

theorem ids_update (rows : List Migration) (migrationId : String) (now : Timestamp)
    (e : CallEvent) :
    (rows.map (·.update migrationId now e)).map Migration.id = rows.map Migration.id := by
  simp [Function.comp_def]

/-- What a step can do: it adds the row that it inserts, it starts an engine, or it goes on with
one. -/
theorem step_cases (hs : s.Sound) (h : step cfg eval s a = some s') : s'.Sound ∧
    ((s.reopened a = [] ∧ s'.engines = s.engines ∧
        s'.rows = s.rows ++ (s.insertion a).toList ∧
        ∀ row ∈ s.insertion a, row.active = true ∧ row.id ∉ s.ids) ∨
      (∃ execution O, a = .launch execution O ∧ s' = s.launch cfg execution O) ∨
      ∃ i now migrationId e rest, a = .engine i now ∧
        s.engines[i]? = some ⟨migrationId, e :: rest⟩ ∧
        s' = { s with
          rows := s.rows.map (·.update migrationId now e)
          engines := s.engines.set i ⟨migrationId, rest⟩ }) := by
  cases a with
  | accept arrival =>
    obtain rfl := Option.some.inj h
    refine ⟨hs.proceed (arrival.calls_job cfg eval) s.tasks, .inl ⟨rfl, ?_, ?_, ?_⟩⟩
    · exact engines_proceed s _
    · rw [rows_proceed]
      simp [insertion]
    · simp [insertion]
  | answer i answers =>
    simp only [step, answer] at h
    split at h
    · next job hjob =>
      obtain rfl := Option.some.inj h
      obtain ⟨-, hcalls⟩ := hs.jobs job (List.mem_of_getElem? hjob)
      have hins : s.insertion (.answer i answers) = insertedRow (s.event job answers) := by
        simp only [insertion, hjob]
      have hnew : ∀ row ∈ insertedRow (s.event job answers), row.active = true ∧ row.id ∉ s.ids :=
        fun row hrow => ⟨hs.inserted_active (List.mem_of_getElem? hjob) (Option.mem_def.1 hrow),
          inserted_fresh (Option.mem_def.1 hrow)⟩
      refine ⟨Sound.proceed ⟨?_, ?_⟩ (hcalls _) s.tasks, .inl ⟨rfl, ?_, ?_, ?_⟩⟩
      · unfold ids
        rw [List.map_append]
        cases hrow : insertedRow (s.event job answers) with
        | none => exact (List.append_nil _).symm ▸ hs.ids
        | some row =>
          rw [Option.toList_some, List.map_singleton, ← List.concat_eq_append]
          exact List.Nodup.concat (hnew row hrow).2 hs.ids
      · exact fun other hother => hs.jobs other (List.mem_of_mem_eraseIdx hother)
      · rw [engines_proceed]
      · rw [rows_proceed, hins]
      · rw [hins]
        exact hnew
    · cases h
  | launch execution O =>
    obtain rfl := Option.some.inj h
    exact ⟨⟨hs.ids, hs.jobs⟩, .inr (.inl ⟨execution, O, rfl, rfl⟩)⟩
  | engine i now =>
    simp only [step, advance] at h
    split at h
    · next migrationId e rest hrun =>
      obtain rfl := Option.some.inj h
      refine ⟨⟨?_, hs.jobs⟩, .inr (.inr ⟨i, now, migrationId, e, rest, rfl, hrun, rfl⟩)⟩
      rw [ids, ids_update]
      exact hs.ids
    · cases h

/-! ### Two rows -/

theorem Sound.eq_of_id (hs : s.Sound) {row row' : Migration} (h : row ∈ s.rows)
    (h' : row' ∈ s.rows) (hid : row.id = row'.id) : row = row' :=
  List.inj_on_of_nodup_map hs.ids h h' hid

theorem onePerVm_iff (hs : s.Sound) : s.OnePerVm ↔ ∀ row ∈ s.rows, ∀ other ∈ s.rows,
    row ≠ other → row.active = true → other.active = true → row.vmId ≠ other.vmId := by
  have : Std.Symm fun a b : Migration => a.active = true → b.active = true → a.vmId ≠ b.vmId :=
    ⟨fun _ _ hab hb ha => (hab ha hb).symm⟩
  constructor
  · intro hone row hrow other hother hne
    exact hone.forall hrow hother hne
  · intro hall
    exact (List.Nodup.of_map _ hs.ids).pairwise_of_forall_ne hall

theorem onePerVm_insert_iff (hs : s.Sound) (hs' : s'.Sound) (hone : s.OnePerVm)
    {new : Option Migration} (hrows : s'.rows = s.rows ++ new.toList)
    (hnew : ∀ row ∈ new, row.active = true ∧ row.id ∉ s.ids) :
    s'.OnePerVm ↔ ∀ row ∈ new.toList, ∀ other ∈ s.rows, other.active = true →
      other.vmId ≠ row.vmId := by
  rw [onePerVm_iff hs']
  rw [onePerVm_iff hs] at hone
  rw [hrows]
  constructor
  · intro hall row hrow other hother hactive
    obtain ⟨hrow', hfresh⟩ := hnew row (Option.mem_toList.1 hrow)
    refine hall other (List.mem_append_left _ hother) row (List.mem_append_right _ hrow) ?_
      hactive hrow'
    rintro rfl
    exact hfresh (List.mem_map_of_mem hother)
  · intro hfree row hrow other hother hne hactive hactive'
    rcases List.mem_append.1 hrow with hrow | hrow
    · rcases List.mem_append.1 hother with hother | hother
      · exact hone row hrow other hother hne hactive hactive'
      · exact hfree other hother row hrow hactive
    · rcases List.mem_append.1 hother with hother | hother
      · exact (hfree row hrow other hother hactive').symm
      · rw [Option.mem_toList] at hrow hother
        exact absurd (Option.mem_unique hrow hother) hne

section Engine
variable {i : ℕ} {now : Timestamp} {migrationId : String} {e : CallEvent} {rest : Trace}

theorem mem_reopened (hrun : s.engines[i]? = some ⟨migrationId, e :: rest⟩) {row : Migration} :
    row ∈ s.reopened (.engine i now) ↔ row ∈ s.rows ∧ row.active = false ∧
      (row.update migrationId now e).active = true := by
  simp only [reopened, hrun]
  unfold Migration.update
  obtain ⟨c, reply⟩ := e
  cases c with
  | transition task state progress =>
    cases reply with
    | error x => simp +contextual [Migration.apply]
    | ok v =>
      by_cases hid : row.id = migrationId
      · simp [hid, Migration.apply, Migration.transition, Migration.active]
      · simp +contextual [hid]
  | fail error =>
    cases reply with
    | error x => simp +contextual [Migration.apply]
    | ok v =>
      by_cases hid : row.id = migrationId
      · simp [hid, Migration.apply, Migration.fail, Migration.active, MigrationState.isTerminal]
      · simp +contextual [hid]
  | _ => simp +contextual [Migration.apply]

/-- A row that is reopened comes into conflict with the active rows of its VM, and with no other. -/
theorem onePerVm_engine_iff (hs : s.Sound) (hs' : s'.Sound) (hone : s.OnePerVm)
    (hrun : s.engines[i]? = some ⟨migrationId, e :: rest⟩)
    (hrows : s'.rows = s.rows.map (·.update migrationId now e)) :
    s'.OnePerVm ↔ ∀ row ∈ s.reopened (.engine i now), ∀ other ∈ s.rows, other.active = true →
      other.vmId ≠ row.vmId := by
  rw [onePerVm_iff hs']
  rw [onePerVm_iff hs] at hone
  have hkept : ∀ row ∈ s.rows, ∀ other ∈ s.rows, row ≠ other →
      (row.update migrationId now e).active ≠ row.active →
      other.update migrationId now e = other := by
    intro row hrow other hother hne hchanged
    have hid : row.id = migrationId := by
      by_contra hid
      exact hchanged (by rw [Migration.update_of_ne hid])
    refine Migration.update_of_ne (fun hid' => hne ?_) now e
    exact hs.eq_of_id hrow hother (hid.trans hid'.symm)
  simp only [hrows, List.forall_mem_map]
  constructor
  · intro hall row hrow other hother hactive
    obtain ⟨hmem, hended, hopen⟩ := (mem_reopened hrun).1 hrow
    have hne : row ≠ other := by
      rintro rfl
      rw [hended] at hactive
      cases hactive
    have hsame := hkept row hmem other hother hne (by rw [hopen, hended]; decide)
    have hvm := hall row hmem other hother ?_ hopen (by rw [hsame]; exact hactive)
    · simpa [eq_comm] using hvm
    · rw [hsame]
      rintro heq
      refine hne (hs.eq_of_id hmem hother ?_)
      rw [← heq, Migration.id_update]
  · intro hfree row hrow other hother hne hactive hactive'
    have hne' : row ≠ other := fun heq => hne (by rw [heq])
    rw [Migration.vmId_update, Migration.vmId_update]
    cases hrow' : row.active with
    | false =>
      have hsame := hkept row hrow other hother hne' (by rw [hactive, hrow']; decide)
      rw [hsame] at hactive'
      exact (hfree row ((mem_reopened hrun).2 ⟨hrow, hrow', hactive⟩) other hother hactive').symm
    | true =>
      cases hother' : other.active with
      | false =>
        exact hfree other ((mem_reopened hrun).2 ⟨hother, hother', hactive'⟩) row hrow hrow'
      | true => exact hone row hrow other hother hne' hrow' hother'

end Engine

theorem onePerVm_step_iff (hs : s.Sound) (hone : s.OnePerVm)
    (h : step cfg eval s a = some s') : s'.OnePerVm ↔ s.Unoccupied a s' := by
  obtain ⟨hs', ⟨hno, -, hrows, hnew⟩ | ⟨execution, O, rfl, rfl⟩ |
    ⟨i, now, migrationId, e, rest, rfl, hrun, rfl⟩⟩ := step_cases hs h
  · rw [onePerVm_insert_iff hs hs' hone hrows hnew, Unoccupied, hno, List.append_nil]
  · exact iff_of_true hone fun row hrow => absurd hrow List.not_mem_nil
  · rw [onePerVm_engine_iff hs hs' hone hrun rfl]
    exact Iff.rfl

/-! ### One engine for each row -/

/-- What is known when no row has had two engines: of a row that is finished, the engine has
nothing more to commit. -/
structure Settled (cfg : Settings) (s : ControlPlane) : Prop where
  once : (s.engines.map EngineRun.migrationId).Nodup
  lawful : ∀ run ∈ s.engines, ∃ kind p past, Respects (Law kind cfg p) (past ++ run.rest)
  closed : ∀ row ∈ s.rows, row.active = false →
    ∃ run ∈ s.engines, run.migrationId = row.id ∧ ∀ e ∈ run.rest, commits e = false

theorem settled_start (cfg : Settings) : ({} : ControlPlane).Settled cfg :=
  ⟨List.nodup_nil, by simp, by simp⟩

theorem Settled.launch (hd : s.Settled cfg) {execution : Execution}
    (hfresh : ∀ run ∈ s.engines, run.migrationId ≠ execution.migrationId) (O : World) :
    (s.launch cfg execution O).Settled cfg := by
  refine ⟨?_, ?_, fun row hrow hended => ?_⟩
  · simp only [ControlPlane.launch, List.map_append, List.map_singleton]
    rw [← List.concat_eq_append]
    refine List.Nodup.concat (fun hmem => ?_) hd.once
    obtain ⟨run, hrun, hid⟩ := List.mem_map.1 hmem
    exact hfresh run hrun hid
  · intro run hrun
    rcases List.mem_append.1 hrun with hrun | hrun
    · exact hd.lawful run hrun
    · obtain rfl := List.mem_singleton.1 hrun
      exact ⟨execution.type, _, [], law_run execution.type cfg execution.context O⟩
  · obtain ⟨run, hrun, hid, hidle⟩ := hd.closed row hrow hended
    exact ⟨run, List.mem_append_left _ hrun, hid, hidle⟩

theorem commits_after_end {kind : MigrationType} {p : Plan} {past rest : Trace} {e : CallEvent}
    {now : Timestamp} {row : Migration} (hr : Respects (Law kind cfg p) (past ++ e :: rest))
    (hactive : row.active = true) (hended : (row.apply now e).active = false) :
    ∀ e' ∈ rest, commits e' = false := by
  have hclosed : Closed e := by
    rw [Migration.active_eq_false, Migration.state_apply] at hended
    rcases rowApply_cases (hr.at_split rfl) row.state with ⟨-, hsame⟩ | ⟨-, hstep | hclosed, -⟩
    · rw [hsame, ← Migration.active_eq_false, hactive] at hended
      cases hended
    · cases hst : rowApply row.state e <;>
        simp_all [MigrationState.isTerminal, MigrationState.isStep]
    · exact hclosed
  intro e' he'
  obtain ⟨pre, post, rfl⟩ := List.append_of_mem he'
  rw [← List.cons_append, ← List.append_assoc] at hr
  exact not_commits_of_closed (hr.at_split rfl) ⟨e, by simp, hclosed⟩

theorem map_migrationId_set {engines : List EngineRun} {i : ℕ} {migrationId : String}
    {rest rest' : Trace} (hrun : engines[i]? = some ⟨migrationId, rest⟩) :
    (engines.set i ⟨migrationId, rest'⟩).map EngineRun.migrationId =
      engines.map EngineRun.migrationId := by
  obtain ⟨hi, hget⟩ := List.getElem?_eq_some_iff.1 hrun
  have hid : EngineRun.migrationId ⟨migrationId, rest'⟩ = engines[i].migrationId := by rw [hget]
  rw [List.map_set, hid, ← List.getElem_map EngineRun.migrationId, List.set_getElem_self]
  rwa [List.length_map]

/-- The engine of a finished row has nothing to commit. -/
theorem Settled.kept (hd : s.Settled cfg) {migrationId : String} {e : CallEvent} {rest : Trace}
    (hmem : ⟨migrationId, e :: rest⟩ ∈ s.engines) (now : Timestamp) {row : Migration}
    (hrow : row ∈ s.rows) (hended : row.active = false) (hid : row.id = migrationId) :
    (∀ e' ∈ rest, commits e' = false) ∧ row.update migrationId now e = row := by
  obtain ⟨run, hin, hid', hidle⟩ := hd.closed row hrow hended
  obtain rfl : run = ⟨migrationId, e :: rest⟩ :=
    List.inj_on_of_nodup_map hd.once hin hmem (hid'.trans hid)
  refine ⟨fun e' he' => hidle e' (List.mem_cons_of_mem e he'), ?_⟩
  rw [Migration.update, if_pos hid]
  exact Migration.apply_of_not_commits (hidle e List.mem_cons_self) row now

theorem Settled.reopens_none (hd : s.Settled cfg) {i : ℕ} (now : Timestamp) {migrationId : String}
    {e : CallEvent} {rest : Trace} (hrun : s.engines[i]? = some ⟨migrationId, e :: rest⟩) :
    s.reopened (.engine i now) = [] := by
  refine List.eq_nil_iff_forall_not_mem.2 fun row hrow => ?_
  obtain ⟨hrow, hended, hopen⟩ := (mem_reopened hrun).1 hrow
  have hsame : row.update migrationId now e = row := by
    by_cases hid : row.id = migrationId
    · exact (hd.kept (List.mem_of_getElem? hrun) now hrow hended hid).2
    · exact Migration.update_of_ne hid now e
  rw [hsame, hended] at hopen
  cases hopen

theorem Settled.advance (hd : s.Settled cfg) {i : ℕ} {now : Timestamp} {migrationId : String}
    {e : CallEvent} {rest : Trace} (hrun : s.engines[i]? = some ⟨migrationId, e :: rest⟩) :
    Settled cfg { s with
      rows := s.rows.map (·.update migrationId now e)
      engines := s.engines.set i ⟨migrationId, rest⟩ } := by
  have hmem := List.mem_of_getElem? hrun
  obtain ⟨kind, p, past, hr⟩ := hd.lawful _ hmem
  have hi : i < s.engines.length := (List.getElem?_eq_some_iff.1 hrun).1
  refine ⟨?_, ?_, ?_⟩
  · rw [map_migrationId_set hrun]
    exact hd.once
  · intro run hin
    rcases List.mem_or_eq_of_mem_set hin with hin | rfl
    · exact hd.lawful run hin
    · exact ⟨kind, p, past ++ [e], by simpa using hr⟩
  · intro row' hrow' hended'
    obtain ⟨row, hrow, rfl⟩ := List.mem_map.1 hrow'
    rw [Migration.id_update]
    by_cases hid : row.id = migrationId
    · refine ⟨⟨migrationId, rest⟩, List.mem_set hi _, hid.symm, ?_⟩
      cases hactive : row.active with
      | true =>
        rw [Migration.update, if_pos hid] at hended'
        exact commits_after_end hr hactive hended'
      | false => exact (hd.kept hmem now hrow hactive hid).1
    · rw [Migration.update_of_ne hid] at hended'
      obtain ⟨run, hin, hid', hidle⟩ := hd.closed row hrow hended'
      obtain ⟨j, hj⟩ := List.mem_iff_getElem?.1 hin
      have hne : i ≠ j := by
        rintro rfl
        obtain rfl := Option.some.inj (hrun.symm.trans hj)
        exact hid hid'.symm
      exact ⟨run, List.mem_of_getElem? ((List.getElem?_set_ne hne).trans hj), hid', hidle⟩

theorem settled_step (hs : s.Sound) (hd : s.Settled cfg) (h : step cfg eval s a = some s')
    (ha : s.LaunchedOnce a s') : s.reopened a = [] ∧ s'.Settled cfg := by
  rcases (step_cases hs h).2 with ⟨hno, hengines, hrows, hnew⟩ | ⟨execution, O, rfl, rfl⟩ |
    ⟨i, now, migrationId, e, rest, rfl, hrun, rfl⟩
  · refine ⟨hno, ?_, ?_, fun row hrow hended => ?_⟩
    · rw [hengines]
      exact hd.once
    · rw [hengines]
      exact hd.lawful
    · rw [hengines]
      rw [hrows] at hrow
      rcases List.mem_append.1 hrow with hrow | hrow
      · exact hd.closed row hrow hended
      · have hactive := (hnew row (Option.mem_toList.1 hrow)).1
        rw [hended] at hactive
        cases hactive
  · exact ⟨rfl, hd.launch ha O⟩
  · exact ⟨hd.reopens_none now hrun, hd.advance hrun⟩

end ControlPlane

open ControlPlane in
/-- The second part says that rows are reopened only where an engine is started on a row that has
had one. -/
theorem one_active_iff (cfg : Settings) (eval : TriggerEval) (acts : List TrafficAct) :
    (Along (step cfg eval) (fun _ _ s' => s'.OnePerVm) {} acts ↔
        Along (step cfg eval) Unoccupied {} acts) ∧
      (Along (step cfg eval) LaunchedOnce {} acts →
        Along (step cfg eval) (fun s a _ => s.reopened a = []) {} acts) := by
  have hstart : ({} : ControlPlane).Sound ∧ ({} : ControlPlane).OnePerVm :=
    ⟨ControlPlane.sound_start, List.Pairwise.nil⟩
  refine ⟨⟨fun hone => ?_, fun hfree => ?_⟩, fun honce => ?_⟩
  · refine hone.imp (fun s => s.Sound ∧ s.OnePerVm) ?_ hstart
    rintro s a s' h ⟨hs, hone⟩ hone'
    exact ⟨(onePerVm_step_iff hs hone h).1 hone', (step_cases hs h).1, hone'⟩
  · refine hfree.imp (fun s => s.Sound ∧ s.OnePerVm) ?_ hstart
    rintro s a s' h ⟨hs, hone⟩ hfree
    have hone' := (onePerVm_step_iff hs hone h).2 hfree
    exact ⟨hone', (step_cases hs h).1, hone'⟩
  · refine honce.imp (fun s => s.Sound ∧ s.Settled cfg) ?_ ⟨hstart.1, settled_start cfg⟩
    rintro s a s' h ⟨hs, hd⟩ ha
    obtain ⟨hno, hd'⟩ := settled_step hs hd h ha
    exact ⟨hno, (step_cases hs h).1, hd'⟩

/-! ### Two requests, and two overloaded clusters -/

/-- The database and the client answer; the clusters `a` and `b` are overloaded. -/
def intakeAnswers (migrationId : String) : IntakeAnswers
  | .uuid4 => .ok migrationId
  | .insert _ => .ok ()
  | .listVms => .ok [⟨"vm", "web", "ACTIVE"⟩]
  | .selectClusters => .ok [⟨"a", "fra", ""⟩, ⟨"b", "iad", ""⟩, ⟨"c", "sin", ""⟩]
  | .latestMetric clusterId => .ok (some ⟨if clusterId = "c" then 10 else 90, 0, 0, 0⟩)
  | .selectPolicies =>
    .ok [⟨"cpu", true, [("trigger", "cpu_pct > 80"), ("action", "live_migrate")]⟩]
  | .delay _ => .ok ()

def cpuAbove80 : TriggerEval
  | "cpu_pct > 80", ctx => some (80 < ctx.cpuPct)
  | _, _ => none

open ControlPlane in
/-- Two requests for one VM, and one pass that finds two clusters overloaded: the client lists
the same VM for both. -/
theorem not_one_active :
    ¬ Along (step settings cpuAbove80) (fun _ _ s' => s'.OnePerVm) {}
        [.accept (.migrate "vm" { destClusterId := "b" }),
          .accept (.liveMigrate "vm" { destClusterId := "c" }),
          .answer 0 (intakeAnswers "m1"), .answer 0 (intakeAnswers "m2"),
          .answer 0 (intakeAnswers "m1"), .answer 0 (intakeAnswers "m2")] ∧
      ¬ Along (step settings cpuAbove80) (fun _ _ s' => s'.OnePerVm) {}
        (.accept .schedule :: (List.replicate 8 (.answer 0 (intakeAnswers "m1")) ++
          List.replicate 3 (.answer 0 (intakeAnswers "m2")))) := by
  decide +kernel

-- the first migration fails, as the VM is in a wrong state, and a second one is accepted; then the
-- message of the first one is delivered again
open ControlPlane in
example :
    let first : Execution := ⟨"m1", "vm", "cluster-a", "b", .cold, []⟩
    let O := cooperative { twoVolumes with status := "ERROR" }
    let request : Arrival := .migrate "vm" { destClusterId := "b" }
    let acts := [.accept request, .answer 0 (intakeAnswers "m1"), .answer 0 (intakeAnswers "m1"),
      .launch first O, .engine 0 1, .engine 0 2, .engine 0 3,
      .accept request, .answer 0 (intakeAnswers "m2"), .answer 0 (intakeAnswers "m2")]
    Along (step settings cpuAbove80) (fun _ _ s' => s'.OnePerVm) {} acts ∧
      ¬ Along (step settings cpuAbove80) (fun _ _ s' => s'.OnePerVm) {}
        (acts ++ [.launch first O, .engine 1 4]) := by
  decide +kernel

end NovaFederation
