import NovaFederation.EventLoop

/-!
# What a task owes for each reply

Between two awaits a task runs alone. While it waits, the other tasks may write the shared
state. `Terms` say what they leave true of a view of it, what is tallied of each reply, and what
is owed for a reply: how the segment after it changes the view, and which call it ends in.
`Honours` is the weakest precondition for these terms. Its assertions see the tally, what is
still owed for the last reply, and the state.
-/

namespace Coroutine
variable {σ ε C : Type} {V : C → Type} {α β ι φ κ : Type}

structure Terms (ε C : Type) (V : C → Type) (φ κ : Type) where
  rely : φ → Prop
  tally : κ → Event ε C V → κ
  owed : κ → Event ε C V → φ → φ → Option C → Prop

/-- An assertion about the tally, what is owed and the state. -/
abbrev Account (κ φ C σ : Type) := κ → (φ → Option C → Prop) → σ → Prop

variable {T : Terms ε C V φ κ} {f : σ → φ}

def Honours (T : Terms ε C V φ κ) (f : σ → φ) (p : Coroutine σ ε C V α)
    (Q : α → Account κ φ C σ) (E : ε → Account κ φ C σ) (n : κ) (owed : φ → Option C → Prop)
    (s : σ) : Prop :=
  match p with
  | .ret a => Q a n owed s
  | .raise e => E e n owed s
  | .get next => Honours T f (next s) Q E n owed s
  | .put s' next => Honours T f next Q E n owed s'
  | .await c next => owed (f s) (some c) ∧ ∀ r s', T.rely (f s') →
      Honours T f (next r) Q E (T.tally n ⟨c, r⟩) (T.owed n ⟨c, r⟩ (f s')) s'

theorem Honours.mono {p : Coroutine σ ε C V α} {Q Q' : α → Account κ φ C σ}
    {E E' : ε → Account κ φ C σ} {n : κ} {owed : φ → Option C → Prop} {s : σ}
    (hp : Honours T f p Q E n owed s) (hQ : ∀ a n owed s, Q a n owed s → Q' a n owed s)
    (hE : ∀ e n owed s, E e n owed s → E' e n owed s) : Honours T f p Q' E' n owed s := by
  induction p generalizing n owed s with
  | ret a => exact hQ _ _ _ _ hp
  | raise e => exact hE _ _ _ _ hp
  | get next ih => exact ih s hp
  | put s' next ih => exact ih hp
  | await c next ih => exact ⟨hp.1, fun r s' hs => ih r (hp.2 r s' hs)⟩

section Rules
variable {Q : α → Account κ φ C σ} {E : ε → Account κ φ C σ} {n : κ}
  {owed : φ → Option C → Prop} {s : σ}

@[simp] theorem honours_pure (a : α) :
    Honours T f (pure a : Coroutine σ ε C V α) Q E n owed s ↔ Q a n owed s := Iff.rfl

@[simp] theorem honours_throw (e : ε) :
    Honours T f (throw e : Coroutine σ ε C V α) Q E n owed s ↔ E e n owed s := Iff.rfl

@[simp] theorem honours_read {Q : σ → Account κ φ C σ} :
    Honours T f (read : Coroutine σ ε C V σ) Q E n owed s ↔ Q s n owed s := Iff.rfl

@[simp] theorem honours_modify {Q : Unit → Account κ φ C σ} (m : σ → σ) :
    Honours T f (modify m : Coroutine σ ε C V Unit) Q E n owed s ↔ Q () n owed (m s) := Iff.rfl

@[simp] theorem honours_bind (p : Coroutine σ ε C V β) (g : β → Coroutine σ ε C V α) :
    Honours T f (p >>= g) Q E n owed s ↔
      Honours T f p (fun b n owed s => Honours T f (g b) Q E n owed s) E n owed s := by
  change Honours T f (p.bind g) Q E n owed s ↔ _
  induction p generalizing n owed s with
  | ret b => exact Iff.rfl
  | raise e => exact Iff.rfl
  | get next ih => exact ih s
  | put s' next ih => exact ih
  | await c next ih =>
    exact and_congr_right fun _ => forall_congr' fun r => forall_congr' fun s' =>
      imp_congr_right fun _ => ih r

@[simp] theorem honours_tryCatch (p : Coroutine σ ε C V α) (g : ε → Coroutine σ ε C V α) :
    Honours T f (tryCatch p g) Q E n owed s ↔
      Honours T f p Q (fun e n owed s => Honours T f (g e) Q E n owed s) n owed s := by
  change Honours T f (handle p g) Q E n owed s ↔ _
  induction p generalizing n owed s with
  | ret b => exact Iff.rfl
  | raise e => exact Iff.rfl
  | get next ih => exact ih s
  | put s' next ih => exact ih
  | await c next ih =>
    exact and_congr_right fun _ => forall_congr' fun r => forall_congr' fun s' =>
      imp_congr_right fun _ => ih r

theorem honours_perform (c : C) {Q : V c → Account κ φ C σ} :
    Honours T f (perform c : Coroutine σ ε C V (V c)) Q E n owed s ↔
      owed (f s) (some c) ∧ ∀ s', T.rely (f s') →
        (∀ v, Q v (T.tally n ⟨c, .ok v⟩) (T.owed n ⟨c, .ok v⟩ (f s')) s') ∧
          ∀ e, E e (T.tally n ⟨c, .error e⟩) (T.owed n ⟨c, .error e⟩ (f s')) s' := by
  constructor
  · rintro ⟨howed, hr⟩
    exact ⟨howed, fun s' hs => ⟨fun v => hr (.ok v) s' hs, fun e => hr (.error e) s' hs⟩⟩
  · rintro ⟨howed, hr⟩
    refine ⟨howed, ?_⟩
    rintro (e | v) s' hs
    · exact (hr s' hs).2 e
    · exact (hr s' hs).1 v

theorem Honours.seq {p : Coroutine σ ε C V β} {g : β → Coroutine σ ε C V α}
    {R : β → Account κ φ C σ} (hp : Honours T f p R E n owed s)
    (hg : ∀ b n owed s, R b n owed s → Honours T f (g b) Q E n owed s) :
    Honours T f (p >>= g) Q E n owed s := by
  rw [honours_bind]
  exact hp.mono hg fun _ _ _ _ he => he

end Rules

/-- The loop rule. The invariant speaks of the number of the elements already visited. -/
theorem honours_forM {b : ι → Coroutine σ ε C V PUnit} {E : ε → Account κ φ C σ}
    (I : ℕ → Account κ φ C σ) (xs : List ι)
    (step : ∀ k x n owed s, k < xs.length → I k n owed s →
      Honours T f (b x) (fun _ => I (k + 1)) E n owed s)
    {n : κ} {owed : φ → Option C → Prop} {s : σ} (hI : I 0 n owed s) :
    Honours T f (xs.forM b) (fun _ => I xs.length) E n owed s := by
  have loop : ∀ (rest : List ι) (k : ℕ), k + rest.length = xs.length → ∀ n owed s,
      I k n owed s → Honours T f (rest.forM b) (fun _ => I xs.length) E n owed s := by
    intro rest
    induction rest with
    | nil =>
      intro k hk n owed s hs
      rw [List.length_nil, Nat.add_zero] at hk
      rw [← hk]
      exact hs
    | cons x rest ih =>
      intro k hk n owed s hs
      rw [List.length_cons] at hk
      apply Honours.seq (step k x n owed s (by omega) hs)
      intro _ n owed s hs
      exact ih (k + 1) (by omega) n owed s hs
  exact loop xs 0 (Nat.zero_add _) n owed s hI

structure Paid (T : Terms ε C V φ κ) (f : σ → φ) (I : κ → Prop) (n : κ)
    (owed : φ → Option C → Prop) (s : σ) : Prop where
  tallied : I n
  relied : T.rely (f s)
  owed : ∀ o, owed (f s) o

/-- The frame rule: a reply after which nothing is owed but the view as it is. -/
theorem honours_frame {I : κ → Prop} {p : Coroutine σ ε C V α}
    (hc : Calls (fun c => ∀ n r v, I n → T.rely v →
      I (T.tally n ⟨c, r⟩) ∧ ∀ o, T.owed n ⟨c, r⟩ v v o) p)
    {n : κ} {owed : φ → Option C → Prop} {s : σ} (hk : KeepsFrom f p s) (hs : Paid T f I n owed s) :
    Honours T f p (fun _ => Paid T f I) (fun _ => Paid T f I) n owed s := by
  induction p generalizing n owed s with
  | ret a => exact hs
  | raise e => exact hs
  | get next ih => exact ih s (hc s) hk hs
  | put s' next ih =>
    refine ih hc hk.2 ⟨hs.tallied, ?_, ?_⟩
    · rw [hk.1]
      exact hs.relied
    · rw [hk.1]
      exact hs.owed
  | await c next ih =>
    refine ⟨hs.owed _, fun r s' hr => ih r (hc.2 r) (hk r s') ?_⟩
    obtain ⟨hI, howed⟩ := hc.1 n r (f s') hs.tallied hr
    exact ⟨hI, hr, howed⟩

def closing (f : σ → φ) : α → Account κ φ C σ := fun _ _ owed s => owed (f s) none

def Paused.call : Paused σ ε C V α → Option C
  | .done _ => none
  | .waiting c _ => some c

/-- The segment up to the next await pays what is owed, and so does each one after it. -/
theorem Honours.settle {p : Coroutine σ ε C V α} {n : κ} {owed : φ → Option C → Prop} {s : σ}
    (hp : Honours T f p (closing f) (closing f) n owed s) :
    owed (f (settle s p).1) (settle s p).2.call ∧
      ∀ c next, (Coroutine.settle s p).2 = .waiting c next → ∀ r s', T.rely (f s') →
        Honours T f (next r) (closing f) (closing f) (T.tally n ⟨c, r⟩)
          (T.owed n ⟨c, r⟩ (f s')) s' := by
  induction p generalizing s with
  | ret a => exact ⟨hp, nofun⟩
  | raise e => exact ⟨hp, nofun⟩
  | get next ih => exact ih s hp
  | put s' next ih => exact ih hp
  | await c next ih =>
    refine ⟨hp.1, ?_⟩
    rintro _ _ ⟨⟩
    exact hp.2

end Coroutine
