import NovaFederation.Clusters
import NovaFederation.Schedule

/-!
# The row of a migration and its two writers

The engine writes the row of its migration and never reads it, so its transactions are those of
a run on its own. `abort_migration` reads the row in one transaction and writes it in a second
one. `System` interleaves the two, any number of requests with one run.
-/

namespace NovaFederation
open History Schedule
variable {kind : MigrationType} {cfg : Settings} {ctx : MigrationContext} {O : World}
  {p : Plan} {h : Trace}

/-- The states that `abort_migration` answers with 409. -/
def MigrationState.isTerminal : MigrationState → Bool
  | .done => true
  | .failed => true
  | .aborted => true
  | _ => false

def commits : CallEvent → Bool
  | ⟨.transition _ _ _, .ok _⟩ => true
  | ⟨.fail _, .ok _⟩ => true
  | _ => false

/-- The row, what the engine will still do, and how many requests have passed their check and
not written yet. -/
structure System where
  row : MigrationState
  engine : Trace
  waiting : ℕ

inductive Action
  | engine
  | check
  | write (committed : Bool)

namespace System

def start (h : Trace) : System := ⟨.pending, h, 0⟩

def step (s : System) : Action → Option System
  | .engine =>
    match s.engine with
    | [] => none
    | e :: rest => some { s with row := rowApply s.row e, engine := rest }
  | .check =>
    if s.row.isTerminal then some s
    else some { s with waiting := s.waiting + 1 }
  | .write committed =>
    if s.waiting = 0 then none
    else some { s with
      row := if committed then .aborted else s.row
      waiting := s.waiting - 1 }

def Final (s : System) (_ : Action) (s' : System) : Prop :=
  s.row.isTerminal = true → s'.row = s.row

instance (s : System) (a : Action) (s' : System) : Decidable (s.Final a s') :=
  inferInstanceAs (Decidable (s.row.isTerminal = true → s'.row = s.row))

/-- The engine commits nothing after an abort, and no abort is committed after the engine's
last word. -/
def Apart (s : System) (a : Action) (_ : System) : Prop :=
  match a with
  | .engine => s.row = .aborted → ∀ e ∈ s.engine.head?, commits e = false
  | .write true => s.row ≠ .done ∧ s.row ≠ .failed
  | _ => True

end System

theorem rowApply_of_not_commits {e : CallEvent} (he : commits e = false) (row : MigrationState) :
    rowApply row e = row := by
  unfold rowApply
  split
  · cases he
  · cases he
  · rfl

def Closed (e : CallEvent) : Prop := DoneRecorded e ∨ FailRecorded e

theorem not_commits_of_closed {e : CallEvent} (hl : Law kind cfg p h e.call)
    (hc : Has Closed h) : commits e = false := by
  obtain ⟨c, hc, hcl⟩ := hc
  unfold commits
  split
  · obtain ⟨hclean, -, hd, -⟩ := (law_forward rfl).1 hl
    rcases hcl with hdone | ⟨error, rfl⟩
    · exact absurd ⟨c, hc, hdone⟩ hd
    · have hfw := (hclean _ hc).1
      cases hfw
  · obtain ⟨hall, hd⟩ := hl
    rcases hcl with hdone | ⟨error, rfl⟩
    · exact absurd ⟨c, hc, hdone⟩ hd
    · have hfw := hall _ hc
      cases hfw
  · rfl

theorem rowApply_cases {e : CallEvent} (hl : Law kind cfg p h e.call) (row : MigrationState) :
    commits e = false ∧ rowApply row e = row ∨
      commits e = true ∧ ((rowApply row e).isStep = true ∨ Closed e) ∧
        rowApply row e ≠ .aborted := by
  cases hcm : commits e with
  | false => exact .inl ⟨rfl, rowApply_of_not_commits hcm row⟩
  | true =>
    refine .inr ⟨rfl, ?_⟩
    unfold commits at hcm
    split at hcm
    · obtain ⟨-, -, -, hs⟩ := (law_forward rfl).1 hl
      rcases hs with hs | ⟨rfl, -⟩
      · refine ⟨.inl hs, ?_⟩
        simp only [rowApply]
        rintro rfl
        cases hs
      · exact ⟨.inr (.inl ⟨_, _, rfl⟩), by simp [rowApply]⟩
    · exact ⟨.inr (.inr ⟨_, rfl⟩), by simp [rowApply]⟩
    · cases hcm

/-- What the engine has done so far respects the law, and a row that is `done` or `failed` was
left so by the engine. -/
def Consistent (kind : MigrationType) (cfg : Settings) (p : Plan) (s : System) : Prop :=
  ∃ past, Respects (Law kind cfg p) (past ++ s.engine) ∧
    (s.row = .done ∨ s.row = .failed → Has Closed past)

theorem consistent_step {s s' : System} {a : Action} (hs : s.step a = some s')
    (hc : Consistent kind cfg p s) : Consistent kind cfg p s' := by
  obtain ⟨past, hr, hrow⟩ := hc
  cases a with
  | engine =>
    simp only [System.step] at hs
    split at hs
    · cases hs
    · next e rest heng =>
      obtain rfl := Option.some.inj hs
      rw [heng] at hr
      refine ⟨past ++ [e], by simpa using hr, fun hend => ?_⟩
      rw [has_snoc]
      rcases rowApply_cases (hr.at_split rfl) s.row with ⟨-, hsame⟩ | ⟨-, hclosed, -⟩
      · rw [hsame] at hend
        exact .inl (hrow hend)
      · rcases hclosed with hstep | hclosed
        · change rowApply s.row e = .done ∨ rowApply s.row e = .failed at hend
          rcases hend with hend | hend
          · rw [hend] at hstep
            cases hstep
          · rw [hend] at hstep
            cases hstep
        · exact .inr hclosed
  | check =>
    simp only [System.step] at hs
    split at hs
    · obtain rfl := Option.some.inj hs
      exact ⟨past, hr, hrow⟩
    · obtain rfl := Option.some.inj hs
      exact ⟨past, hr, hrow⟩
  | write committed =>
    simp only [System.step] at hs
    split at hs
    · cases hs
    · obtain rfl := Option.some.inj hs
      refine ⟨past, hr, fun hend => ?_⟩
      cases committed with
      | true => rcases hend with hend | hend <;> cases hend
      | false => exact hrow hend

theorem apart_of_final {s s' : System} {a : Action} (hs : s.step a = some s')
    (hc : Consistent kind cfg p s) (hf : s.Final a s') : s.Apart a s' := by
  obtain ⟨past, hr, -⟩ := hc
  cases a with
  | engine =>
    intro hab e he
    obtain ⟨rest, heng⟩ := List.head?_eq_some_iff.1 he
    rw [heng] at hr
    rcases rowApply_cases (hr.at_split rfl) s.row with ⟨hno, -⟩ | ⟨-, -, hne⟩
    · exact hno
    · simp only [System.step, heng, Option.some.injEq] at hs
      have hsame := hf (by rw [hab]; rfl)
      rw [← hs, hab] at hsame
      rw [hab] at hne
      exact absurd hsame hne
  | check => trivial
  | write committed =>
    cases committed with
    | false => trivial
    | true =>
      simp only [System.step] at hs
      split at hs
      · cases hs
      · obtain rfl := Option.some.inj hs
        constructor
        · intro hrow
          have hsame := hf (by rw [hrow]; rfl)
          rw [hrow] at hsame
          cases hsame
        · intro hrow
          have hsame := hf (by rw [hrow]; rfl)
          rw [hrow] at hsame
          cases hsame

theorem final_of_apart {s s' : System} {a : Action} (hs : s.step a = some s')
    (hc : Consistent kind cfg p s) (ha : s.Apart a s') : s.Final a s' := by
  obtain ⟨past, hr, hrow⟩ := hc
  intro hterm
  have hcases : s.row = .aborted ∨ s.row = .done ∨ s.row = .failed := by
    cases hrow' : s.row <;> simp_all [MigrationState.isTerminal]
  cases a with
  | engine =>
    simp only [System.step] at hs
    split at hs
    · cases hs
    · next e rest heng =>
      obtain rfl := Option.some.inj hs
      rw [heng] at hr
      have hno : commits e = false := by
        rcases hcases with hab | hend
        · exact ha hab e (by simp [heng])
        · exact not_commits_of_closed (hr.at_split rfl) (hrow hend)
      exact rowApply_of_not_commits hno s.row
  | check =>
    simp only [System.step] at hs
    split at hs
    · obtain rfl := Option.some.inj hs
      rfl
    · obtain rfl := Option.some.inj hs
      rfl
  | write committed =>
    simp only [System.step] at hs
    split at hs
    · cases hs
    · obtain rfl := Option.some.inj hs
      cases committed with
      | false => rfl
      | true =>
        obtain ⟨hd, hf⟩ := ha
        rcases hcases with hab | hend | hend
        · exact hab.symm
        · exact absurd hend hd
        · exact absurd hend hf

theorem consistent_start (kind : MigrationType) (cfg : Settings) (ctx : MigrationContext)
    (O : World) :
    Consistent kind cfg (kind.migrate cfg ctx O).state.ctx.plan
      (System.start (kind.migrate cfg ctx O).trace) :=
  ⟨[], law_run kind cfg ctx O, by simp [System.start]⟩

theorem terminal_final_iff (kind : MigrationType) (cfg : Settings) (ctx : MigrationContext)
    (O : World) (actions : List Action) :
    Along System.step System.Final (System.start (kind.migrate cfg ctx O).trace) actions ↔
      Along System.step System.Apart (System.start (kind.migrate cfg ctx O).trace) actions := by
  have hstart := consistent_start kind cfg ctx O
  constructor
  · intro hf
    refine hf.imp _ (fun s a s' hs hc hp => ?_) hstart
    exact ⟨apart_of_final hs hc hp, consistent_step hs hc⟩
  · intro ha
    refine ha.imp _ (fun s a s' hs hc hp => ?_) hstart
    exact ⟨final_of_apart hs hc hp, consistent_step hs hc⟩

/-- A request aborts a migration that has just been accepted; then the engine starts. -/
theorem abort_overwritten :
    ¬ Along System.step System.Final
      (System.start (MigrationType.cold.migrate settings (connected .cold)
        (cooperative twoVolumes)).trace)
      [.check, .write true, .engine] := by
  decide +kernel

end NovaFederation
