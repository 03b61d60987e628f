import Mathlib.Tactic.Common

/-!
# Schedules of a transition system

A schedule is a list of actions; an action that is not enabled ends it. `Along P` says that `P`
holds of every step that a schedule takes, and `Along.imp` carries one such property to another
with the help of an invariant. `recorded` is the system with a record of what happened at its side.
`Leads ok` says that some schedule of allowed actions, each of them enabled in its turn, leads from
one state to another.
-/

namespace Schedule
variable {S A : Type} {step : S → A → Option S} {P Q : S → A → S → Prop} {s s' : S} {a : A}
  {as : List A}

def Along (step : S → A → Option S) (P : S → A → S → Prop) : S → List A → Prop
  | _, [] => True
  | s, a :: as => ∀ s', step s a = some s' → P s a s' ∧ Along step P s' as

theorem along_cons (hs : step s a = some s') :
    Along step P s (a :: as) ↔ P s a s' ∧ Along step P s' as := by
  constructor
  · intro h
    exact h s' hs
  · rintro h t ht
    obtain rfl : s' = t := Option.some.inj (hs.symm.trans ht)
    exact h

theorem along_cons_none (hs : step s a = none) : Along step P s (a :: as) := by
  intro s' hs'
  rw [hs] at hs'
  cases hs'

instance decidableAlong [∀ s a s', Decidable (P s a s')] :
    ∀ s as, Decidable (Along step P s as)
  | _, [] => isTrue trivial
  | s, a :: as =>
    match hs : step s a with
    | none => isTrue (along_cons_none hs)
    | some s' =>
      have : Decidable (Along step P s' as) := decidableAlong s' as
      decidable_of_iff (P s a s' ∧ Along step P s' as) (along_cons hs).symm

theorem along_of_forall (hP : ∀ s a s', P s a s') : Along step P s as := by
  induction as generalizing s with
  | nil => trivial
  | cons a as ih => exact fun s' _ => ⟨hP s a s', ih⟩

theorem Along.and (hP : Along step P s as) (hQ : Along step Q s as) :
    Along step (fun s a s' => P s a s' ∧ Q s a s') s as := by
  induction as generalizing s with
  | nil => trivial
  | cons a as ih =>
    intro s' hs'
    obtain ⟨hp, hrestP⟩ := hP s' hs'
    obtain ⟨hq, hrestQ⟩ := hQ s' hs'
    exact ⟨⟨hp, hq⟩, ih hrestP hrestQ⟩

/-- The run lemma: what one step carries over from the invariant and `P`, a schedule does. -/
theorem Along.imp (Inv : S → Prop)
    (hstep : ∀ s a s', step s a = some s' → Inv s → P s a s' → Q s a s' ∧ Inv s') (hs : Inv s)
    (hP : Along step P s as) : Along step Q s as := by
  induction as generalizing s with
  | nil => trivial
  | cons a as ih =>
    intro s' hs'
    obtain ⟨hp, hrest⟩ := hP s' hs'
    obtain ⟨hq, hinv⟩ := hstep s a s' hs' hs hp
    exact ⟨hq, ih hinv hrest⟩

/-! ### Records -/

variable {R : Type} (note : S → A → List R)

/-- Each step adds to the record what is noted of it. -/
def recorded (step : S → A → Option S) (p : S × List R) (a : A) : Option (S × List R) :=
  (step p.1 a).map fun s' => (s', p.2 ++ note p.1 a)

theorem recorded_eq_some {p p' : S × List R} (h : recorded note step p a = some p') :
    step p.1 a = some p'.1 ∧ p'.2 = p.2 ++ note p.1 a := by
  obtain ⟨s', hs', rfl⟩ := Option.map_eq_some_iff.1 h
  exact ⟨hs', rfl⟩

/-- A record changes nothing. -/
theorem along_recorded (log : List R) :
    Along (recorded note step) (fun p a p' => P p.1 a p'.1) (s, log) as ↔ Along step P s as := by
  induction as generalizing s log with
  | nil => exact Iff.rfl
  | cons a as ih =>
    constructor
    · intro h s' hs'
      obtain ⟨hp, hrest⟩ := h (s', log ++ note s a) (by simp [recorded, hs'])
      exact ⟨hp, (ih _).1 hrest⟩
    · rintro h ⟨s', log'⟩ hs'
      obtain ⟨hstep, -⟩ := recorded_eq_some note hs'
      obtain ⟨hp, hrest⟩ := h s' hstep
      exact ⟨hp, (ih _).2 hrest⟩

/-! ### Where a schedule leads -/

def arrive (step : S → A → Option S) (s : S) (as : List A) : Option S := as.foldlM step s

def Leads (step : S → A → Option S) (ok : A → Bool) (s s' : S) : Prop :=
  ∃ as : List A, (∀ a ∈ as, ok a = true) ∧ arrive step s as = some s'

variable {ok : A → Bool}

theorem arrive_cons (s : S) (a : A) (as : List A) :
    arrive step s (a :: as) = (step s a).bind fun s' => arrive step s' as :=
  List.foldlM_cons

theorem Leads.refl (s : S) : Leads step ok s s := ⟨[], nofun, rfl⟩

theorem Leads.head {t : S} (ha : ok a = true) (hs : step s a = some s')
    (hl : Leads step ok s' t) : Leads step ok s t := by
  obtain ⟨as, has, hr⟩ := hl
  refine ⟨a :: as, List.forall_mem_cons.2 ⟨ha, has⟩, ?_⟩
  rw [arrive_cons, hs]
  exact hr

/-- What every enabled action keeps, a schedule keeps. -/
theorem arrive_keeps (Inv : S → Prop)
    (hstep : ∀ s a s', ok a = true → step s a = some s' → Inv s → Inv s') (hs : Inv s)
    (has : ∀ a ∈ as, ok a = true) (hr : arrive step s as = some s') : Inv s' := by
  induction as generalizing s with
  | nil =>
    obtain rfl : s = s' := Option.some.inj hr
    exact hs
  | cons a as ih =>
    rw [List.forall_mem_cons] at has
    rw [arrive_cons] at hr
    obtain ⟨t, ht, hr⟩ := Option.bind_eq_some_iff.1 hr
    exact ih (hstep s a t has.1 ht hs) has.2 hr

theorem Leads.keeps (Inv : S → Prop)
    (hstep : ∀ s a s', ok a = true → step s a = some s' → Inv s → Inv s') (hs : Inv s)
    (hl : Leads step ok s s') : Inv s' := by
  obtain ⟨as, has, hr⟩ := hl
  exact arrive_keeps Inv hstep hs has hr

end Schedule
