import Mathlib.Data.List.Destutter
import NovaFederation.CoroutineLogic

/-!
# Ordering laws on histories

`Respects L h` says that each call of the history was permitted by the events before it,
`Has P h` that some event satisfies `P`, and `Throughout I h` that `I` held at every moment.
The state that a history leaves behind in the world is a left fold of its events; the lemmas
at the end read a fold at the last event that matters to it, and its successive values.
-/

namespace History
variable {ε C W : Type} {V : C → Type}

def Has (P : Event ε C V → Prop) (h : History ε C V) : Prop := ∃ e ∈ h, P e

theorem not_has_nil (P : Event ε C V → Prop) : ¬ Has P [] := by simp [Has]

theorem has_append {P : Event ε C V → Prop} {h t : History ε C V} :
    Has P (h ++ t) ↔ Has P h ∨ Has P t := by
  simp [Has, or_and_right, exists_or]

theorem has_snoc {P : Event ε C V → Prop} {h : History ε C V} {e : Event ε C V} :
    Has P (h ++ [e]) ↔ Has P h ∨ P e := by
  rw [has_append]
  simp [Has]

theorem Has.append {P : Event ε C V → Prop} {h : History ε C V} (hP : Has P h)
    (t : History ε C V) : Has P (h ++ t) :=
  has_append.2 (.inl hP)

theorem Has.extend {P : Event ε C V → Prop} {h h' : History ε C V} (hP : Has P h)
    (hh : h <+: h') : Has P h' := by
  obtain ⟨t, rfl⟩ := hh
  exact hP.append t

/-- An event that satisfies `P` splits the history at its first occurrence. -/
theorem Has.first {P : Event ε C V → Prop} {h : History ε C V} (hP : Has P h) :
    ∃ pre e post, h = pre ++ e :: post ∧ P e ∧ ¬ Has P pre := by
  induction h with
  | nil => exact absurd hP (not_has_nil P)
  | cons a h ih =>
    by_cases ha : P a
    · exact ⟨[], a, h, rfl, ha, not_has_nil P⟩
    · have hh : Has P h := by
        obtain ⟨e, he, hPe⟩ := hP
        rcases List.mem_cons.1 he with rfl | he
        · exact absurd hPe ha
        · exact ⟨e, he, hPe⟩
      obtain ⟨pre, e, post, rfl, hPe, hpre⟩ := ih hh
      refine ⟨a :: pre, e, post, rfl, hPe, ?_⟩
      intro hq
      obtain ⟨b, hb, hPb⟩ := hq
      rcases List.mem_cons.1 hb with rfl | hb
      · exact ha hPb
      · exact hpre ⟨b, hb, hPb⟩

instance {P : Event ε C V → Prop} [DecidablePred P] (h : History ε C V) : Decidable (Has P h) :=
  inferInstanceAs (Decidable (∃ e ∈ h, P e))

/-! ### What a history shows -/

section Observe
variable {α : Type} (f : Event ε C V → Option α) {e : Event ε C V}

theorem filterMap_snoc_none (he : f e = none) (h : History ε C V) :
    (h ++ [e]).filterMap f = h.filterMap f := by
  rw [List.filterMap_append, List.filterMap_cons_none he]
  exact List.append_nil _

theorem filterMap_snoc_some {a : α} (he : f e = some a) (h : History ε C V) :
    (h ++ [e]).filterMap f = h.filterMap f ++ [a] := by
  rw [List.filterMap_append, List.filterMap_cons_some he]
  rfl

end Observe

def Respects (L : History ε C V → C → Prop) (h : History ε C V) : Prop :=
  ∀ pre e, pre ++ [e] <+: h → L pre e.call

section Respects
variable {L : History ε C V → C → Prop} {h h' : History ε C V} {e : Event ε C V}

theorem respects_nil (L : History ε C V → C → Prop) : Respects L [] := by
  intro pre e hpre
  have hnil := List.prefix_nil.1 hpre
  exact absurd hnil (List.concat_ne_nil e pre)

/-- The step of every run lemma: only the last call is new. -/
theorem respects_snoc : Respects L (h ++ [e]) ↔ Respects L h ∧ L h e.call := by
  constructor
  · intro hr
    have hold : Respects L h := fun pre a hpre => hr pre a (hpre.trans (List.prefix_append _ _))
    exact ⟨hold, hr h e List.prefix_rfl⟩
  · rintro ⟨hold, hnew⟩ pre a hpre
    rcases List.prefix_concat_iff.1 hpre with heq | hpre
    · obtain ⟨rfl, hae⟩ := List.append_inj' heq rfl
      rw [List.singleton_inj.1 hae]
      exact hnew
    · exact hold pre a hpre

theorem Respects.at_split (hr : Respects L h) {pre post : History ε C V}
    (hh : h = pre ++ e :: post) : L pre e.call :=
  hr pre e ⟨post, by simp [hh]⟩

theorem Respects.restrict (hr : Respects L h') (hh : h <+: h') : Respects L h :=
  fun pre e hpre => hr pre e (hpre.trans hh)

theorem Respects.mono {L' : History ε C V → C → Prop} (hr : Respects L h)
    (hL : ∀ pre e, pre ++ [e] <+: h → L pre e.call → L' pre e.call) : Respects L' h :=
  fun pre e hpre => hL pre e hpre (hr pre e hpre)

end Respects

def Throughout (I : History ε C V → Prop) (h : History ε C V) : Prop :=
  ∀ pre, pre <+: h → I pre

section Fold
variable (apply : W → Event ε C V → W)

def replay (w : W) (h : History ε C V) : W := h.foldl apply w

@[simp] theorem replay_nil (w : W) : replay apply w [] = w := rfl

theorem replay_append (w : W) (h t : History ε C V) :
    replay apply w (h ++ t) = replay apply (replay apply w h) t := by
  simp [replay, List.foldl_append]

@[simp] theorem replay_cons (w : W) (e : Event ε C V) (h : History ε C V) :
    replay apply w (e :: h) = replay apply (apply w e) h := rfl

theorem replay_invariant (P : W → Prop) {h : History ε C V}
    (hP : ∀ w, ∀ e ∈ h, P w → P (apply w e)) {w : W} (hw : P w) : P (replay apply w h) := by
  induction h generalizing w with
  | nil => exact hw
  | cons e h ih =>
    rw [replay_cons]
    apply ih (fun w a ha => hP w a (List.mem_cons_of_mem e ha))
    exact hP w e List.mem_cons_self hw

/-- What an event establishes holds as long as no later event breaks it. -/
theorem replay_of_last (P : W → Prop) {pre post : History ε C V} {e : Event ε C V}
    (he : ∀ w, P (apply w e)) (hP : ∀ w, ∀ a ∈ post, P w → P (apply w a)) (w : W) :
    P (replay apply w (pre ++ e :: post)) := by
  rw [replay_append, replay_cons]
  exact replay_invariant apply P hP (he _)

end Fold

section Evolve
variable (apply : History ε C V → W → Event ε C V → W)

def evolve (w : W) (h : History ε C V) : W :=
  (replay (fun p e => (p.1 ++ [e], apply p.1 p.2 e)) (([] : History ε C V), w) h).2

@[simp] theorem evolve_nil (w : W) : evolve apply w [] = w := rfl

theorem evolve_snoc (w : W) (h : History ε C V) (e : Event ε C V) :
    evolve apply w (h ++ [e]) = apply h (evolve apply w h) e := by
  have hpast : ∀ (p : History ε C V × W) (t : History ε C V),
      (replay (fun p e => (p.1 ++ [e], apply p.1 p.2 e)) p t).1 = p.1 ++ t := by
    intro p t
    induction t generalizing p with
    | nil => simp
    | cons a t ih => rw [replay_cons, ih, List.append_assoc, List.singleton_append]
  unfold evolve
  rw [replay_append, replay_cons, replay_nil, hpast, List.nil_append]

theorem evolve_became (P : W → Prop) {w : W} {pre post : History ε C V}
    (hstart : ¬ P (evolve apply w pre)) (hend : P (evolve apply w (pre ++ post))) :
    ∃ mid e, pre <+: mid ∧ mid ++ [e] <+: pre ++ post ∧ ¬ P (evolve apply w mid) ∧
      P (apply mid (evolve apply w mid) e) := by
  induction post using List.reverseRecOn with
  | nil =>
    rw [List.append_nil] at hend
    exact absurd hend hstart
  | append_singleton post e ih =>
    rw [← List.append_assoc] at hend ⊢
    by_cases hbefore : P (evolve apply w (pre ++ post))
    · obtain ⟨mid, a, hpre, hmid, hno, hyes⟩ := ih hbefore
      exact ⟨mid, a, hpre, hmid.trans (List.prefix_append _ _), hno, hyes⟩
    · rw [evolve_snoc] at hend
      exact ⟨pre ++ post, e, List.prefix_append _ _, List.prefix_rfl, hbefore, hend⟩

end Evolve

section Changes
variable [DecidableEq W] (apply : W → Event ε C V → W)

/-- The successive values of a fold, with repeats collapsed. -/
def changes (w : W) (h : History ε C V) : List W := (h.scanl apply w).destutter (· ≠ ·)

theorem destutter'_concat (a b : W) (l : List W) :
    (l ++ [b]).destutter' (· ≠ ·) a =
      if l.getLastD a = b then l.destutter' (· ≠ ·) a else l.destutter' (· ≠ ·) a ++ [b] := by
  induction l generalizing a with
  | nil =>
    by_cases hab : a = b
    · simp [hab]
    · simp [hab]
  | cons c l ih =>
    by_cases hac : a = c
    · subst hac
      simp only [List.cons_append, List.getLastD_cons]
      rw [List.destutter'_cons_neg _ (by simp), List.destutter'_cons_neg _ (by simp), ih]
    · simp only [List.cons_append, List.getLastD_cons]
      rw [List.destutter'_cons_pos _ hac, List.destutter'_cons_pos _ hac, ih]
      split_ifs <;> rfl

@[simp] theorem changes_nil (w : W) : changes apply w ([] : History ε C V) = [w] := rfl

theorem changes_snoc (w : W) (h : History ε C V) (e : Event ε C V) :
    changes apply w (h ++ [e]) =
      if replay apply w h = apply (replay apply w h) e then changes apply w h
      else changes apply w h ++ [apply (replay apply w h) e] := by
  have hhead : (h.scanl apply w).head? = some w := List.head?_scanl
  have hlast : (h.scanl apply w).getLast? = some (replay apply w h) := List.getLast?_scanl
  rw [changes, changes, List.scanl_append]
  generalize h.scanl apply w = l at hhead hlast
  cases l with
  | nil => cases hhead
  | cons a l =>
    obtain rfl : a = w := Option.some.inj hhead
    rw [List.getLast?_cons, Option.some.injEq, ← List.getLastD_eq_getLast?] at hlast
    exact (destutter'_concat a _ l).trans (by rw [hlast]; rfl)

end Changes

end History
