import NovaFederation.CallOrder

/-!
# The conduct of a coroutine

`Upholds L I p`: from any state and history in which `I` holds, `p` makes only calls that the law
`L` permits, and `I` holds again wherever it ends. There is one rule for each way to build a
coroutine. An invariant that is not lost when something happens (`Lasting`) may be used of the
state that was read as well as of the present one.
-/

namespace Coroutine
open History
variable {σ ε C ι : Type} {V : C → Type} {α β : Type}

def Upholds (L : History ε C V → C → Prop) (I : σ → History ε C V → Prop)
    (p : Coroutine σ ε C V α) : Prop :=
  ∀ s h, I s h ∧ Respects L h → wp p (fun _ s' h' => I s' h' ∧ Respects L h')
    (fun _ s' h' => I s' h' ∧ Respects L h') s h

def Lasting (I : σ → History ε C V → Prop) : Prop := ∀ s h e, I s h → I s (h ++ [e])

variable {L : History ε C V → C → Prop} {I : σ → History ε C V → Prop} {p : Coroutine σ ε C V α}

theorem Upholds.pure (a : α) : Upholds L I (pure a : Coroutine σ ε C V α) := fun _ _ hI => hI

theorem Upholds.throw (e : ε) : Upholds L I (throw e : Coroutine σ ε C V α) := fun _ _ hI => hI

theorem Upholds.modify {m : σ → σ} (hm : ∀ s h, I s h → I (m s) h) :
    Upholds L I (modify m : Coroutine σ ε C V Unit) :=
  fun s h hI => ⟨hm s h hI.1, hI.2⟩

theorem Upholds.perform {c : C} (hlast : Lasting I) (hc : ∀ s h, I s h → L h c) :
    Upholds L I (perform c : Coroutine σ ε C V (V c)) := by
  rintro s h ⟨hI, hr⟩
  rw [wp_perform]
  exact ⟨fun _ => ⟨hlast s h _ hI, respects_snoc.2 ⟨hr, hc s h hI⟩⟩,
    fun _ => ⟨hlast s h _ hI, respects_snoc.2 ⟨hr, hc s h hI⟩⟩⟩

theorem Upholds.bind {p : Coroutine σ ε C V β} {g : β → Coroutine σ ε C V α}
    (hp : Upholds L I p) (hg : ∀ b, Upholds L I (g b)) : Upholds L I (p >>= g) :=
  fun s h hI => wp_seq (hp s h hI) fun b s' h' hI' => hg b s' h' hI'

theorem Upholds.tryCatch {q : ε → Coroutine σ ε C V α} (hp : Upholds L I p)
    (hq : ∀ e, Upholds L I (q e)) : Upholds L I (tryCatch p q) := by
  intro s h hI
  rw [wp_tryCatch]
  exact wp_mono (hp s h hI) (fun _ _ _ hQ => hQ) fun e s' h' hE => hq e s' h' hE

theorem Upholds.ite {c : Prop} [Decidable c] {q : Coroutine σ ε C V α}
    (hp : c → Upholds L I p) (hq : ¬ c → Upholds L I q) : Upholds L I (if c then p else q) := by
  split_ifs with hc
  · exact hp hc
  · exact hq hc

theorem Upholds.forM {xs : List ι} {b : ι → Coroutine σ ε C V PUnit}
    (hb : ∀ x ∈ xs, Upholds L I (b x)) : Upholds L I (xs.forM b) := by
  induction xs with
  | nil => exact .pure _
  | cons x xs ih =>
    rw [List.forall_mem_cons] at hb
    exact .bind hb.1 fun _ => ih hb.2

/-! ### The state that was read -/

theorem Lasting.and {J : σ → History ε C V → Prop} (hI : Lasting I) (hJ : Lasting J) :
    Lasting fun s h => I s h ∧ J s h :=
  fun s h e hq => ⟨hI s h e hq.1, hJ s h e hq.2⟩

theorem Upholds.frame (hp : Upholds L I p) {J : History ε C V → Prop}
    (hJ : ∀ h e, J h → J (h ++ [e])) : Upholds L (fun s h => I s h ∧ J h) p := by
  rintro s h ⟨⟨hI, hj⟩, hr⟩
  have hkept : ∀ (q : Coroutine σ ε C V α) s h, J h →
      wp q (fun _ _ h' => J h') (fun _ _ h' => J h') s h := by
    intro q
    induction q with
    | ret a => exact fun _ _ hj => hj
    | raise e => exact fun _ _ hj => hj
    | get next ih => exact fun s h hj => ih s s h hj
    | put s' next ih => exact fun _ h hj => ih s' h hj
    | await c next ih => exact fun s h hj r => ih r s _ (hJ h _ hj)
  apply wp_mono (wp_and (hp s h ⟨hI, hr⟩) (hkept p s h hj))
  · exact fun _ _ _ hq => ⟨⟨hq.1.1, hq.2⟩, hq.1.2⟩
  · exact fun _ _ _ hq => ⟨⟨hq.1.1, hq.2⟩, hq.1.2⟩

theorem Upholds.of_iff {J : σ → History ε C V → Prop} (hp : Upholds L I p)
    (hiff : ∀ s h, I s h ↔ J s h) : Upholds L J p := by
  have heq : I = J := funext fun s => funext fun h => propext (hiff s h)
  rw [← heq]
  exact hp

theorem Upholds.read_bind {f : σ → Coroutine σ ε C V α}
    (hf : ∀ s₀, Upholds L (fun s h => I s h ∧ I s₀ h) (f s₀)) : Upholds L I (read >>= f) := by
  rintro s h ⟨hI, hr⟩
  rw [wp_bind, wp_read]
  apply wp_mono (hf s s h ⟨⟨hI, hI⟩, hr⟩)
  · exact fun _ _ _ hq => ⟨hq.1.1, hq.2⟩
  · exact fun _ _ _ hq => ⟨hq.1.1, hq.2⟩

/-- Nor is it forgotten what a call has been answered. -/
theorem Upholds.perform_bind {c : C} {k : V c → Coroutine σ ε C V α} (hlast : Lasting I)
    (hc : ∀ s h, I s h → L h c)
    (hk : ∀ v, Upholds L (fun s h => I s h ∧ Has (· = ⟨c, .ok v⟩) h) (k v)) :
    Upholds L I (Coroutine.perform c >>= k) := by
  rintro s h ⟨hI, hr⟩
  have hlaw : ∀ r, Respects L (h ++ [⟨c, r⟩]) := fun r => respects_snoc.2 ⟨hr, hc s h hI⟩
  rw [wp_bind, wp_perform]
  refine ⟨fun v => ?_, fun e => ⟨hlast s h _ hI, hlaw _⟩⟩
  apply wp_mono (hk v s _ ⟨⟨hlast s h _ hI, has_snoc.2 (.inr rfl)⟩, hlaw _⟩)
  · exact fun _ _ _ hq => ⟨hq.1.1, hq.2⟩
  · exact fun _ _ _ hq => ⟨hq.1.1, hq.2⟩

/-- The law holds all along every run. -/
theorem Upholds.run (hp : Upholds L I p) {s : σ} (hs : I s []) (O : Oracle ε C V) :
    Respects L (Coroutine.run O p s).2.2 :=
  (wp_exec_end (I := fun s h => I s h ∧ Respects L h) (hp s [] ⟨hs, respects_nil L⟩) O).2

end Coroutine
