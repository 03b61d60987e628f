import NovaFederation.ActiveMigrations
import NovaFederation.Paging

/-!
# The listing of migrations

`list_migrations` returns the rows newest first, in pages. A reader who goes through the pages
does so while requests, passes of the scheduler, engines and abort requests write the table. They
insert rows and update them, and nothing deletes a row; so a walk through all migrations misses
none that was there when it began. A walk through those in one state does, when a row leaves the
state.
-/

namespace NovaFederation
open Schedule

namespace MigrationState

/-- `MigrationState(text)`. -/
def ofValue (text : String) : Option MigrationState :=
  [.pending, .preflight, .disk, .memory, .cutover, .bgp, .cleanup, .done, .failed, .aborted].find?
    (·.value == text)

/-- A filter on a state is accepted under the name that the summaries show, and under no other. -/
theorem ofValue_eq_some {text : String} {state : MigrationState} :
    ofValue text = some state ↔ state.value = text := by
  constructor
  · intro h
    exact beq_iff_eq.1 (List.find?_some (p := fun s : MigrationState => s.value == text) h)
  · rintro rfl
    cases state <;> decide

end MigrationState

def MigrationType.value : MigrationType → String
  | .cold => "cold"
  | .live => "live"

structure MigrationSummary where
  id : String
  vmId : String
  sourceClusterId : String
  destClusterId : String
  type : String
  state : String
  progressPct : ℚ
  error : Option String
  finishedAt : Option Timestamp
  deriving DecidableEq

def Migration.summary (m : Migration) : MigrationSummary where
  id := m.id
  vmId := m.vmId
  sourceClusterId := m.sourceClusterId
  destClusterId := m.destClusterId
  type := m.type.value
  state := m.state.value
  progressPct := m.progressPct
  error := m.error
  finishedAt := m.finishedAt

def selection : Option String → Except HTTPException (Migration → Bool)
  | none => .ok fun _ => true
  | some text =>
    if text = "" then .ok fun _ => true
    else match MigrationState.ofValue text with
      | some state => .ok fun m => m.state = state
      | none => .error ⟨400, s!"Invalid state: {text}"⟩

section Endpoint
variable (createdAt : String → Timestamp)

/-- `list_migrations`. No writer touches the column `created_at`; it goes by the id of the row. -/
def listMigrations (rows : List Migration) (state : Option String) (limit offset : ℤ) :
    Except HTTPException (List MigrationSummary) := do
  let selected ← selection state
  -- the database takes no negative number
  if limit < 0 ∨ offset < 0 then throw ⟨500, "Internal Server Error"⟩
  pure ((Paging.page (fun m => createdAt m.id) (rows.filter selected) limit.toNat
    offset.toNat).map Migration.summary)

/-- All pages, each from the table as it is then, up to the first one that is not full. -/
def browse (state : Option String) (limit : ℕ) :
    ℕ → List (List Migration) → Except HTTPException (Option (List MigrationSummary))
  | _, [] => pure none
  | offset, rows :: later => do
    let page ← listMigrations createdAt rows state limit offset
    if page.length < limit then pure (some page)
    else do
      let rest ← browse state limit (offset + limit) later
      pure (rest.map (page ++ ·))

end Endpoint

/-! ### The writers of the table -/

inductive BoardAct
  | traffic (a : TrafficAct)
  | abort (migrationId : String)

namespace ControlPlane

def abort (s : ControlPlane) (migrationId : String) : ControlPlane :=
  { s with rows := s.rows.map fun row => if row.id = migrationId then row.abort else row }

variable (cfg : Settings) (eval : TriggerEval)

def write (s : ControlPlane) : BoardAct → ControlPlane
  | .traffic a => (step cfg eval s a).getD s
  | .abort migrationId => s.abort migrationId

def writes (s : ControlPlane) (acts : List BoardAct) : ControlPlane := acts.foldl (write cfg eval) s

def tables : ControlPlane → List (List BoardAct) → List (List Migration)
  | s, [] => [s.rows]
  | s, acts :: rest => s.rows :: tables (s.writes cfg eval acts) rest

variable {cfg eval} {s s' : ControlPlane}

theorem ids_step {a : TrafficAct} (h : step cfg eval s a = some s') :
    s'.ids = s.ids ∨ ∃ id, id ∉ s.ids ∧ s'.ids = s.ids ++ [id] := by
  cases a with
  | accept arrival =>
    obtain rfl := Option.some.inj h
    rw [ids, rows_proceed]
    exact .inl rfl
  | answer i answers =>
    simp only [step, answer] at h
    split at h
    · next job _ =>
      obtain rfl := Option.some.inj h
      rw [ids, rows_proceed, List.map_append]
      cases hrow : insertedRow (s.event job answers) with
      | none => exact .inl (List.append_nil _)
      | some row => exact .inr ⟨row.id, inserted_fresh hrow, rfl⟩
    · cases h
  | launch execution O =>
    obtain rfl := Option.some.inj h
    exact .inl rfl
  | engine i now =>
    simp only [step, advance] at h
    split at h
    · next migrationId e rest _ =>
      obtain rfl := Option.some.inj h
      exact .inl (ids_update s.rows migrationId now e)
    · cases h

theorem ids_abort (s : ControlPlane) (migrationId : String) :
    (s.abort migrationId).ids = s.ids := by
  rw [ids, ids, abort, List.map_map]
  refine List.map_congr_left fun row _ => ?_
  dsimp only [Function.comp]
  split_ifs <;> rfl

theorem ids_write (cfg : Settings) (eval : TriggerEval) (s : ControlPlane) (a : BoardAct) :
    s.ids ⊆ (s.write cfg eval a).ids ∧ (s.ids.Nodup → (s.write cfg eval a).ids.Nodup) := by
  cases a with
  | abort migrationId =>
    rw [write, ids_abort]
    exact ⟨List.Subset.refl _, id⟩
  | traffic a =>
    simp only [write]
    cases h : step cfg eval s a with
    | none => exact ⟨List.Subset.refl _, id⟩
    | some s' =>
      rw [Option.getD_some]
      rcases ids_step h with heq | ⟨id, hfresh, heq⟩
      · rw [heq]
        exact ⟨List.Subset.refl _, fun hn => hn⟩
      · rw [heq]
        exact ⟨List.subset_append_left _ _, fun hn => by
          rw [← List.concat_eq_append]
          exact hn.concat hfresh⟩

theorem ids_writes (cfg : Settings) (eval : TriggerEval) (s : ControlPlane)
    (acts : List BoardAct) :
    s.ids ⊆ (s.writes cfg eval acts).ids ∧ (s.ids.Nodup → (s.writes cfg eval acts).ids.Nodup) := by
  induction acts generalizing s with
  | nil => exact ⟨List.Subset.refl _, id⟩
  | cons a acts ih =>
    obtain ⟨hsub, hnodup⟩ := ids_write cfg eval s a
    obtain ⟨hsub', hnodup'⟩ := ih (s.write cfg eval a)
    exact ⟨List.Subset.trans hsub hsub', fun hn => hnodup' (hnodup hn)⟩

theorem tables_chain (cfg : Settings) (eval : TriggerEval) (hnodup : s.ids.Nodup)
    (between : List (List BoardAct)) :
    (s.tables cfg eval between).IsChain fun rows rows' =>
      rows.map Migration.id ⊆ rows'.map Migration.id ∧ (rows'.map Migration.id).Nodup := by
  induction between generalizing s with
  | nil => exact List.isChain_singleton _
  | cons acts rest ih =>
    obtain ⟨hsub, hn⟩ := ids_writes cfg eval s acts
    have hrest := ih (hn hnodup)
    have hlink : s.rows.map Migration.id ⊆ (s.writes cfg eval acts).rows.map Migration.id ∧
        ((s.writes cfg eval acts).rows.map Migration.id).Nodup := by
      exact ⟨hsub, hn hnodup⟩
    unfold tables
    cases rest with
    | nil => exact List.isChain_cons_cons.2 ⟨hlink, List.isChain_singleton _⟩
    | cons acts' rest => exact List.isChain_cons_cons.2 ⟨hlink, hrest⟩

theorem tables_eq_cons (cfg : Settings) (eval : TriggerEval) (s : ControlPlane)
    (between : List (List BoardAct)) :
    ∃ later, s.tables cfg eval between = s.rows :: later := by
  cases between with
  | nil => exact ⟨[], rfl⟩
  | cons acts rest => exact ⟨_, rfl⟩

end ControlPlane

/-! ### The pages -/

section Pages
variable {createdAt : String → Timestamp} {state : Option String} {limit offset : ℕ}
  {selected : Migration → Bool} {tables : List (List Migration)}

theorem listMigrations_eq (hsel : selection state = .ok selected) (rows : List Migration)
    (limit offset : ℕ) : listMigrations createdAt rows state limit offset =
      .ok ((Paging.page (fun m => createdAt m.id) (rows.filter selected) limit offset).map
        Migration.summary) := by
  have hnonneg : ¬ ((limit : ℤ) < 0 ∨ (offset : ℤ) < 0) := by omega
  rw [listMigrations, hsel]
  simp only [hnonneg, if_false]
  rfl

theorem browse_eq (hsel : selection state = .ok selected) :
    browse createdAt state limit offset tables =
      .ok ((Paging.walk (fun m => createdAt m.id) limit offset
        (tables.map (·.filter selected))).map (·.map Migration.summary)) := by
  induction tables generalizing offset with
  | nil => rfl
  | cons rows later ih =>
    rw [browse, listMigrations_eq hsel, List.map_cons, Paging.walk]
    simp only [bind, Except.bind, List.length_map]
    split_ifs with hshort
    · rfl
    · rw [ih]
      cases Paging.walk (fun m : Migration => createdAt m.id) limit (offset + limit)
          (later.map (·.filter selected)) with
      | none => rfl
      | some rest => simp [pure, Except.pure]

/-- No two migrations were created at one time. -/
def CreatedApart (createdAt : String → Timestamp) (tables : List (List Migration)) : Prop :=
  ∀ rows ∈ tables, ∀ rows' ∈ tables, ∀ a ∈ rows, ∀ b ∈ rows',
    createdAt a.id = createdAt b.id → a.id = b.id

/-- A walk through the migrations of one selection misses none, as long as no row leaves it. -/
theorem browse_complete {rows : List Migration} {later : List (List Migration)}
    (hapart : CreatedApart createdAt (rows :: later)) (hsel : selection state = .ok selected)
    (hchain : (rows :: later).IsChain fun rows rows' =>
      (rows'.map Migration.id).Nodup ∧ ∀ row ∈ rows, selected row = true →
        ∃ row' ∈ rows', row'.id = row.id ∧ selected row' = true)
    (hnodup : (rows.map Migration.id).Nodup) {out : List MigrationSummary}
    (hout : browse createdAt state limit 0 (rows :: later) = .ok (some out)) :
    ∀ row ∈ rows, selected row = true → row.id ∈ out.map MigrationSummary.id := by
  have hkeys : ∀ table ∈ rows :: later, (table.map Migration.id).Nodup →
      ((table.filter selected).map fun m => createdAt m.id).Nodup := by
    intro table htable hn
    have hsub : ((table.filter selected).map Migration.id).Nodup :=
      hn.sublist (List.filter_sublist.map _)
    refine List.Nodup.map_on (fun a ha b hb hab => ?_) hsub.of_map
    have hid := hapart table htable table htable a (List.mem_of_mem_filter ha) b
      (List.mem_of_mem_filter hb) hab
    exact List.inj_on_of_nodup_map hsub ha hb hid
  rw [browse_eq hsel] at hout
  obtain ⟨pages, hwalk, rfl⟩ := Option.map_eq_some_iff.1 (Except.ok.inj hout)
  have hkept : ((rows :: later).map (·.filter selected)).IsChain
      (Paging.Kept fun m : Migration => createdAt m.id) := by
    refine (List.isChain_map _).2 (hchain.imp_of_mem_imp fun table table' _ htable' hstep => ?_)
    refine ⟨?_, hkeys table' htable' hstep.1⟩
    intro k hk
    obtain ⟨row, hrow, rfl⟩ := List.mem_map.1 hk
    obtain ⟨hmem, hselected⟩ := List.mem_filter.1 hrow
    obtain ⟨row', hmem', hid, hselected'⟩ := hstep.2 row hmem hselected
    refine List.mem_map.2 ⟨row', List.mem_filter.2 ⟨hmem', hselected'⟩, ?_⟩
    rw [hid]
  have hcomplete := Paging.walk_complete hkept (hkeys rows List.mem_cons_self hnodup) hwalk
  intro row hrow hselected
  obtain ⟨m, hm, hkey⟩ := List.mem_map.1
    (hcomplete (List.mem_map.2 ⟨row, List.mem_filter.2 ⟨hrow, hselected⟩, rfl⟩))
  obtain ⟨_, hshown, hmem⟩ := Paging.mem_of_walk hwalk hm
  obtain ⟨table, htable, rfl⟩ := List.mem_map.1 hshown
  rw [List.map_map]
  refine List.mem_map.2 ⟨m, hm, ?_⟩
  exact hapart table htable rows List.mem_cons_self m (List.mem_of_mem_filter hmem) row hrow hkey

/-- Whatever is written between the pages, a walk through all of them shows every migration that
was in the table when it began. -/
theorem pages_miss_nothing (cfg : Settings) (eval : TriggerEval) (createdAt : String → Timestamp)
    (past : List BoardAct) (between : List (List BoardAct)) (limit : ℕ)
    (hapart : CreatedApart createdAt
      ((ControlPlane.writes cfg eval {} past).tables cfg eval between))
    (out : List MigrationSummary)
    (hout : browse createdAt none limit 0
      ((ControlPlane.writes cfg eval {} past).tables cfg eval between) = .ok (some out)) :
    ∀ row ∈ (ControlPlane.writes cfg eval {} past).rows, row.id ∈ out.map MigrationSummary.id := by
  have hnodup : (ControlPlane.writes cfg eval {} past).ids.Nodup :=
    (ControlPlane.ids_writes cfg eval {} past).2 List.nodup_nil
  have hchain := ControlPlane.tables_chain cfg eval hnodup between
  obtain ⟨later, htables⟩ := ControlPlane.tables_eq_cons cfg eval
    (ControlPlane.writes cfg eval {} past) between
  rw [htables] at hout hchain hapart
  have hkept := hchain.imp fun rows rows' hstep =>
    show (rows'.map Migration.id).Nodup ∧ ∀ row ∈ rows, true = true →
        ∃ row' ∈ rows', row'.id = row.id ∧ true = true from by
      refine ⟨hstep.2, fun row hrow _ => ?_⟩
      obtain ⟨row', hmem', hid⟩ := List.mem_map.1 (hstep.1 (List.mem_map_of_mem hrow))
      exact ⟨row', hmem', hid, rfl⟩
  exact fun row hrow => browse_complete hapart rfl hkept hnodup hout row hrow rfl

def accepted (migrationId : String) : List BoardAct :=
  [.traffic (.accept (.migrate "vm" { destClusterId := "cluster-b" })),
    .traffic (.answer 0 (intakeAnswers migrationId)),
    .traffic (.answer 0 (intakeAnswers migrationId))]

/-- The length of the id tells the time. -/
def byLength (id : String) : Timestamp := id.length

def shown (id state : String) (error : Option String) : MigrationSummary :=
  ⟨id, "vm", "cluster-a", "cluster-b", "cold", state, 0, error, none⟩

/-- After the first page a third migration comes in and the second is aborted. -/
theorem pages_miss_nothing_of_two :
    (ControlPlane.writes settings cpuAbove80 {} (accepted "m" ++ accepted "m2")).rows.map
      Migration.id ⊆ ["m2", "m2", "m"] := by
  have hseen := pages_miss_nothing settings cpuAbove80 byLength (accepted "m" ++ accepted "m2")
    [accepted "m33" ++ [.abort "m2"], [], []] 1 (by unfold CreatedApart; decide +kernel)
    [shown "m2" "pending" none, shown "m2" "aborted" (some "Aborted by user"),
      shown "m" "pending" none] (by decide +kernel)
  intro id hid
  obtain ⟨row, hrow, rfl⟩ := List.mem_map.1 hid
  exact hseen row hrow

/-- A reader of the pending migrations misses the older one when the newer one goes on. -/
example : browse byLength (some "pending") 1 0
    [(ControlPlane.writes settings cpuAbove80 {} (accepted "m" ++ accepted "m2")).rows,
      (ControlPlane.writes settings cpuAbove80 {}
        (accepted "m" ++ accepted "m2" ++ [.abort "m2"])).rows] =
    .ok (some [shown "m2" "pending" none]) := by decide +kernel

end Pages

end NovaFederation
