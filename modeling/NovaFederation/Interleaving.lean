import NovaFederation.CallOrder
import NovaFederation.EventLoop

/-!
# Tasks beside each other

An `Ensemble` is any number of coroutines, each with a state of its own, that wait for the answers
of one world. A step answers the call of one of them. What a task has done so far it could have
done alone, in a world that gives the same answers in turn; so whatever holds of every run of a
coroutine holds of it in every ensemble.

The world that the tasks share is a fold of all their events. The part of it that the events of
only one task concern is the fold of that task's history.
-/

namespace Coroutine
open History
variable {ι σ ε C : Type} {V : C → Type} {α : Type}

structure Ensemble (ι σ ε C : Type) (V : C → Type) (α : Type) where
  tasks : ι → σ × Paused σ ε C V α
  past : List (ι × Event ε C V) := []

/-- The world that gives these answers in turn and goes on as `O`. -/
def scripted (script : List (Answers ε C V)) (O : Oracle ε C V) : Oracle ε C V :=
  fun h c => match script[h.length]? with
    | some answers => answers c
    | none => O h c

def finish (O : Oracle ε C V) (h : History ε C V) : σ × Paused σ ε C V α → Outcome σ ε C V α
  | (s, .done r) => (r, s, h)
  | (s, .waiting c next) => exec O (next (O h c)) s (h ++ [⟨c, O h c⟩])

theorem finish_settle (O : Oracle ε C V) (p : Coroutine σ ε C V α) (s : σ) (h : History ε C V) :
    finish O h (settle s p) = exec O p s h := by
  rw [exec_settle]
  rfl

theorem finish_extends (O : Oracle ε C V) (h : History ε C V) (q : σ × Paused σ ε C V α) :
    h <+: (finish O h q).2.2 := by
  obtain ⟨s, r | ⟨c, next⟩⟩ := q
  · exact List.prefix_rfl
  · exact (List.prefix_append _ _).trans (exec_extends O _ s _)

theorem scripted_concat (script : List (Answers ε C V)) (answers : Answers ε C V)
    (O : Oracle ε C V) : scripted (script ++ [answers]) O =
      scripted script fun h c => if h.length = script.length then answers c else O h c := by
  funext h c
  unfold scripted
  rcases Nat.lt_trichotomy h.length script.length with hlt | heq | hgt
  · rw [List.getElem?_append_left hlt, List.getElem?_eq_getElem hlt]
  · rw [heq, List.getElem?_concat_length, List.getElem?_eq_none (Nat.le_refl _)]
    exact (if_pos heq).symm
  · rw [List.getElem?_eq_none (by simpa using Nat.succ_le_of_lt hgt),
      List.getElem?_eq_none (Nat.le_of_lt hgt)]
    exact (if_neg (Nat.ne_of_gt hgt)).symm

namespace Ensemble

def start (p : ι → Coroutine σ ε C V α) (s : ι → σ) : Ensemble ι σ ε C V α where
  tasks i := settle (s i) (p i)

section Step
variable [DecidableEq ι]

def step (g : Ensemble ι σ ε C V α) (a : ι × Answers ε C V) : Ensemble ι σ ε C V α :=
  match (g.tasks a.1).2 with
  | .done _ => g
  | .waiting c next =>
    { tasks := Function.update g.tasks a.1 (settle (g.tasks a.1).1 (next (a.2 c)))
      past := g.past ++ [(a.1, ⟨c, a.2 c⟩)] }

def steps (g : Ensemble ι σ ε C V α) (acts : List (ι × Answers ε C V)) : Ensemble ι σ ε C V α :=
  acts.foldl step g

def own (i : ι) (past : List (ι × Event ε C V)) : History ε C V :=
  past.filterMap fun e => if e.1 = i then some e.2 else none

variable {i j : ι} {past : List (ι × Event ε C V)} {e : Event ε C V}

theorem mem_own : e ∈ own i past ↔ (i, e) ∈ past := by
  unfold own
  rw [List.mem_filterMap]
  constructor
  · rintro ⟨⟨j, a⟩, ha, hq⟩
    obtain ⟨rfl, hae⟩ := Option.ite_none_right_eq_some.1 hq
    obtain rfl := Option.some.inj hae
    exact ha
  · intro he
    exact ⟨(i, e), he, if_pos rfl⟩

theorem own_snoc_self : own i (past ++ [(i, e)]) = own i past ++ [e] := by
  simp [own]

theorem own_snoc_other (hij : j ≠ i) : own i (past ++ [(j, e)]) = own i past := by
  simp [own, hij]

/-! ### A task alone -/

/-- What one step does to a task: nothing, unless it answers its call. -/
theorem step_cases (g : Ensemble ι σ ε C V α) (a : ι × Answers ε C V) (i : ι) :
    ((g.step a).tasks i = g.tasks i ∧ own i (g.step a).past = own i g.past) ∨
      ∃ c next, a.1 = i ∧ (g.tasks i).2 = .waiting c next ∧
        (g.step a).tasks i = settle (g.tasks i).1 (next (a.2 c)) ∧
        own i (g.step a).past = own i g.past ++ [⟨c, a.2 c⟩] := by
  obtain ⟨j, answers⟩ := a
  unfold step
  split
  · exact .inl ⟨rfl, rfl⟩
  · next c next hwaiting =>
    by_cases hij : j = i
    · subst hij
      exact .inr ⟨c, next, rfl, hwaiting, Function.update_self _ _ _, own_snoc_self⟩
    · exact .inl ⟨Function.update_of_ne (Ne.symm hij) _ _, own_snoc_other hij⟩

/-- The run of a task alone comes through the same point, if the world answers as it did. -/
theorem alone (p : ι → Coroutine σ ε C V α) (s : ι → σ) (acts : List (ι × Answers ε C V)) (i : ι) :
    ∃ script : List (Answers ε C V),
      script.length = (own i ((start p s).steps acts).past).length ∧
      ∀ O, run (scripted script O) (p i) (s i) =
        finish (scripted script O) (own i ((start p s).steps acts).past)
          (((start p s).steps acts).tasks i) := by
  induction acts using List.reverseRecOn with
  | nil => exact ⟨[], rfl, fun O => (finish_settle _ _ _ _).symm⟩
  | append_singleton acts a ih =>
    obtain ⟨script, hlength, hrun⟩ := ih
    have hsteps : (start p s).steps (acts ++ [a]) = ((start p s).steps acts).step a := by
      rw [steps, List.foldl_append]
      rfl
    rw [hsteps]
    generalize (start p s).steps acts = g at hlength hrun
    rcases g.step_cases a i with ⟨htask, hown⟩ | ⟨c, next, -, hwaiting, htask, hown⟩
    · rw [htask, hown]
      exact ⟨script, hlength, hrun⟩
    · rw [htask, hown]
      refine ⟨script ++ [a.2], by simp [hlength], fun O => ?_⟩
      have hreply : scripted (script ++ [a.2]) O (own i g.past) c = a.2 c := by
        rw [scripted, ← hlength, List.getElem?_concat_length]
      have hpoint : g.tasks i = ((g.tasks i).1, .waiting c next) := by
        rw [← hwaiting]
      have hbefore := hrun fun h c => if h.length = script.length then a.2 c else O h c
      rw [← scripted_concat, hpoint, finish, hreply] at hbefore
      rw [hbefore, finish_settle]

/-- What a task has done is the beginning of a run in which everything after it fails; once it has
ended it is that run. -/
theorem run_of_own (p : ι → Coroutine σ ε C V α) (s : ι → σ) (acts : List (ι × Answers ε C V))
    (i : ι) (x : ε) :
    ∃ O t, (run O (p i) (s i)).2.2 = own i ((start p s).steps acts).past ++ t ∧
      (∀ e ∈ t, e.reply = .error x) ∧
      ∀ s' r, ((start p s).steps acts).tasks i = (s', .done r) →
        run O (p i) (s i) = (r, s', own i ((start p s).steps acts).past) := by
  obtain ⟨script, hlength, hrun⟩ := alone p s acts i
  obtain ⟨t, ht⟩ := finish_extends (scripted script fun _ _ => .error x)
    (own i ((start p s).steps acts).past) (((start p s).steps acts).tasks i)
  refine ⟨scripted script fun _ _ => .error x, t, by rw [hrun, ht], fun e he => ?_, ?_⟩
  · obtain ⟨pre, post, rfl⟩ := List.append_of_mem he
    have hreply : e.reply = scripted script (fun _ _ => .error x)
        (own i ((start p s).steps acts).past ++ pre) e.call := by
      refine exec_consistent _ (p i) (s i) [] _ e post ?_ (Nat.zero_le _)
      rw [List.append_assoc, ht, ← hrun]
      rfl
    rw [hreply, scripted, List.getElem?_eq_none (by simp [hlength])]
  · intro s' r hdone
    rw [hrun, hdone]
    rfl

end Step

/-! ### The shared world -/

section Shared
variable {W D : Type} (act : ι → W → Event ε C V → W)

def shared (w : W) (past : List (ι × Event ε C V)) : W :=
  past.foldl (fun w e => act e.1 w e.2) w

theorem shared_snoc (w : W) (past : List (ι × Event ε C V)) (e : ι × Event ε C V) :
    shared act w (past ++ [e]) = act e.1 (shared act w past) e.2 := by
  rw [shared, List.foldl_append]
  rfl

theorem shared_keeps (P : W → Prop) {past : List (ι × Event ε C V)}
    (hact : ∀ i e, (i, e) ∈ past → ∀ w, P w → P (act i w e)) {w : W} (hw : P w) :
    P (shared act w past) := by
  induction past using List.reverseRecOn with
  | nil => exact hw
  | append_singleton past e ih =>
    rw [shared_snoc]
    exact hact e.1 e.2 (by simp) _ (ih fun i a ha => hact i a (List.mem_append_left _ ha))

variable [DecidableEq ι]

/-- What only the events of one task concern goes with the fold of that task's history. -/
theorem shared_simulates (R : W → D → Prop) (apply : D → Event ε C V → D) {i : ι}
    {past : List (ι × Event ε C V)}
    (hown : ∀ e, (i, e) ∈ past → ∀ w d, R w d → R (act i w e) (apply d e))
    (hother : ∀ j e, (j, e) ∈ past → j ≠ i → ∀ w d, R w d → R (act j w e) d) {w : W} {d : D}
    (hstart : R w d) : R (shared act w past) (replay apply d (own i past)) := by
  induction past using List.reverseRecOn with
  | nil => exact hstart
  | append_singleton past e ih =>
    obtain ⟨j, e⟩ := e
    have ih := ih (fun a ha => hown a (List.mem_append_left _ ha))
      fun k a ha => hother k a (List.mem_append_left _ ha)
    rw [shared_snoc]
    by_cases hij : j = i
    · subst hij
      rw [own_snoc_self, replay_append]
      exact hown e (by simp) _ _ ih
    · rw [own_snoc_other hij]
      exact hother j e (by simp) hij _ _ ih

end Shared

end Ensemble

end Coroutine
