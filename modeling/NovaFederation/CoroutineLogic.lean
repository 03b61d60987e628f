import NovaFederation.Coroutine

/-!
# Weakest preconditions for coroutines

`wp p Q E s h` says that from the shared state `s` and the history `h`, whatever the world
replies, `p` ends in `Q` when it returns and in `E` when an exception escapes. Both
postconditions see the result, the state left behind and the whole history, so an ordering
law on the calls is a postcondition like any other.
-/

namespace Coroutine
variable {σ ε C : Type} {V : C → Type} {α β ι : Type}

def wp (p : Coroutine σ ε C V α) (Q : α → σ → History ε C V → Prop)
    (E : ε → σ → History ε C V → Prop) (s : σ) (h : History ε C V) : Prop :=
  match p with
  | .ret a => Q a s h
  | .raise e => E e s h
  | .get next => wp (next s) Q E s h
  | .put s' next => wp next Q E s' h
  | .await c next => ∀ r, wp (next r) Q E s (h ++ [⟨c, r⟩])

theorem wp_exec {p : Coroutine σ ε C V α} {Q : α → σ → History ε C V → Prop}
    {E : ε → σ → History ε C V → Prop} (O : Oracle ε C V) {s : σ} {h : History ε C V}
    (hp : wp p Q E s h) :
    (∀ a s' h', exec O p s h = (.ok a, s', h') → Q a s' h') ∧
      ∀ e s' h', exec O p s h = (.error e, s', h') → E e s' h' := by
  induction p generalizing s h with
  | ret a =>
    simp only [exec, Prod.mk.injEq, Except.ok.injEq, reduceCtorEq, false_and, and_imp]
    refine ⟨?_, by simp⟩
    rintro _ _ _ rfl rfl rfl
    exact hp
  | raise e =>
    simp only [exec, Prod.mk.injEq, Except.error.injEq, reduceCtorEq, false_and, and_imp]
    refine ⟨by simp, ?_⟩
    rintro _ _ _ rfl rfl rfl
    exact hp
  | get next ih => exact ih s hp
  | put s' next ih => exact ih hp
  | await c next ih => exact ih _ (hp (O h c))

/-- What holds at either end of a coroutine holds at the end of its run. -/
theorem wp_exec_end {p : Coroutine σ ε C V α} {I : σ → History ε C V → Prop} {s : σ}
    {h : History ε C V} (hp : wp p (fun _ => I) (fun _ => I) s h) (O : Oracle ε C V) :
    I (exec O p s h).2.1 (exec O p s h).2.2 := by
  obtain ⟨hok, herr⟩ := wp_exec O hp
  rcases hout : exec O p s h with ⟨e | a, s', h'⟩
  · exact herr e s' h' hout
  · exact hok a s' h' hout

theorem exec_extends (O : Oracle ε C V) (p : Coroutine σ ε C V α) (s : σ) (h : History ε C V) :
    h <+: (exec O p s h).2.2 := by
  induction p generalizing s h with
  | ret a => exact List.prefix_rfl
  | raise e => exact List.prefix_rfl
  | get next ih => exact ih s s h
  | put s' next ih => exact ih s' h
  | await c next ih => exact (List.prefix_append _ _).trans (ih _ s _)

theorem exec_consistent (O : Oracle ε C V) (p : Coroutine σ ε C V α) (s : σ) (h : History ε C V)
    (pre : History ε C V) (e : Event ε C V) (post : History ε C V)
    (hout : (exec O p s h).2.2 = pre ++ e :: post) (hle : h.length ≤ pre.length) :
    e.reply = O pre e.call := by
  induction p generalizing s h with
  | ret a =>
    have hlen := congrArg List.length hout
    simp only [exec, List.length_append, List.length_cons] at hlen
    omega
  | raise x =>
    have hlen := congrArg List.length hout
    simp only [exec, List.length_append, List.length_cons] at hlen
    omega
  | get next ih => exact ih s s h hout hle
  | put s' next ih => exact ih s' h hout hle
  | await c next ih =>
    rw [exec] at hout
    rcases Nat.lt_or_ge h.length pre.length with hlt | hge
    · apply ih _ s _ hout
      rw [List.length_append, List.length_singleton]
      omega
    · have hlen : h.length = pre.length := Nat.le_antisymm hle hge
      obtain ⟨t, ht⟩ := exec_extends O (next (O h c)) s (h ++ [⟨c, O h c⟩])
      rw [hout, List.append_assoc, List.singleton_append] at ht
      obtain ⟨rfl, htail⟩ := List.append_inj ht hlen
      obtain ⟨rfl, -⟩ := List.cons.inj htail
      rfl

theorem reply_of_run {O : Oracle ε C V} {p : Coroutine σ ε C V α} {s : σ} {pre : History ε C V}
    {e : Event ε C V} (h : pre ++ [e] <+: (run O p s).2.2) : e.reply = O pre e.call := by
  obtain ⟨post, hpost⟩ := h
  rw [List.append_assoc, List.singleton_append] at hpost
  exact exec_consistent O p s [] pre e post hpost.symm (Nat.zero_le _)

theorem exec_tryCatch (O : Oracle ε C V) (p : Coroutine σ ε C V α) (f : ε → Coroutine σ ε C V α)
    (s : σ) (h : History ε C V) :
    exec O (tryCatch p f) s h = match exec O p s h with
      | (.ok a, s', h') => (.ok a, s', h')
      | (.error e, s', h') => exec O (f e) s' h' := by
  change exec O (handle p f) s h = _
  induction p generalizing s h with
  | ret a => rfl
  | raise e => rfl
  | get next ih => exact ih s s h
  | put s' next ih => exact ih s' h
  | await c next ih => exact ih _ s _

theorem exec_bind (O : Oracle ε C V) (p : Coroutine σ ε C V β) (f : β → Coroutine σ ε C V α)
    (s : σ) (h : History ε C V) :
    exec O (p >>= f) s h = match exec O p s h with
      | (.ok b, s', h') => exec O (f b) s' h'
      | (.error e, s', h') => (.error e, s', h') := by
  change exec O (p.bind f) s h = _
  induction p generalizing s h with
  | ret b => rfl
  | raise e => rfl
  | get next ih => exact ih s s h
  | put s' next ih => exact ih s' h
  | await c next ih => exact ih _ s _

/-- What the world answers once `h` has happened. -/
def after (O : Oracle ε C V) (h : History ε C V) : Oracle ε C V := fun t c => O (h ++ t) c

/-- A run that starts late is one from the beginning in the world as it is then. -/
theorem exec_after (O : Oracle ε C V) (p : Coroutine σ ε C V α) (s : σ) (h t : History ε C V) :
    exec O p s (h ++ t) = ((exec (after O h) p s t).1, (exec (after O h) p s t).2.1,
      h ++ (exec (after O h) p s t).2.2) := by
  induction p generalizing s t with
  | ret a => rfl
  | raise e => rfl
  | get next ih => exact ih s s t
  | put s' next ih => exact ih s' t
  | await c next ih =>
    simp only [exec, List.append_assoc]
    exact ih _ s _

theorem exec_perform_of_ok {O : Oracle ε C V} {h : History ε C V} {c : C} {v : V c}
    (hO : O h c = .ok v) (s : σ) :
    exec O (perform c : Coroutine σ ε C V (V c)) s h = (.ok v, s, h ++ [⟨c, .ok v⟩]) := by
  change exec O (ofExcept (O h c)) s (h ++ [⟨c, O h c⟩]) = _
  rw [hO]
  rfl

theorem exec_perform_of_error {O : Oracle ε C V} {h : History ε C V} {c : C} {e : ε}
    (hO : O h c = .error e) (s : σ) :
    exec O (perform c : Coroutine σ ε C V (V c)) s h = (.error e, s, h ++ [⟨c, .error e⟩]) := by
  change exec O (ofExcept (O h c)) s (h ++ [⟨c, O h c⟩]) = _
  rw [hO]
  rfl

theorem exec_perform_extends (O : Oracle ε C V) (c : C) (f : V c → Coroutine σ ε C V α) (s : σ)
    (h : History ε C V) : h ++ [⟨c, O h c⟩] <+: (exec O (perform c >>= f) s h).2.2 :=
  exec_extends O _ s (h ++ [⟨c, O h c⟩])

theorem wp_mono {p : Coroutine σ ε C V α} {Q Q' : α → σ → History ε C V → Prop}
    {E E' : ε → σ → History ε C V → Prop} {s : σ} {h : History ε C V}
    (hp : wp p Q E s h) (hQ : ∀ a s' h', Q a s' h' → Q' a s' h')
    (hE : ∀ e s' h', E e s' h' → E' e s' h') : wp p Q' E' s h := by
  induction p generalizing s h with
  | ret a => exact hQ _ _ _ hp
  | raise e => exact hE _ _ _ hp
  | get next ih => exact ih s hp
  | put s' next ih => exact ih hp
  | await c next ih => exact fun r => ih r (hp r)

theorem wp_and {p : Coroutine σ ε C V α} {Q Q' : α → σ → History ε C V → Prop}
    {E E' : ε → σ → History ε C V → Prop} {s : σ} {h : History ε C V} (hp : wp p Q E s h)
    (hp' : wp p Q' E' s h) :
    wp p (fun a s h => Q a s h ∧ Q' a s h) (fun e s h => E e s h ∧ E' e s h) s h := by
  induction p generalizing s h with
  | ret a => exact ⟨hp, hp'⟩
  | raise e => exact ⟨hp, hp'⟩
  | get next ih => exact ih s hp hp'
  | put s' next ih => exact ih hp hp'
  | await c next ih => exact fun r => ih r (hp r) (hp' r)

theorem wp_forall {p : Coroutine σ ε C V α} {Q : ι → α → σ → History ε C V → Prop}
    {E : ι → ε → σ → History ε C V → Prop} {s : σ} {h : History ε C V}
    (hp : ∀ i, wp p (Q i) (E i) s h) :
    wp p (fun a s h => ∀ i, Q i a s h) (fun e s h => ∀ i, E i e s h) s h := by
  induction p generalizing s h with
  | ret a => exact hp
  | raise e => exact hp
  | get next ih => exact ih s hp
  | put s' next ih => exact ih hp
  | await c next ih => exact fun r => ih r fun i => hp i r

theorem wp_weaken {p : Coroutine σ ε C V α} {Q Q' : α → σ → History ε C V → Prop}
    {E : ε → σ → History ε C V → Prop} {s : σ} {h : History ε C V} (hp : wp p Q E s h)
    (hQ : ∀ a s' h', Q a s' h' → Q' a s' h') : wp p Q' E s h :=
  wp_mono hp hQ fun _ _ _ he => he

section Rules
variable {Q : α → σ → History ε C V → Prop} {E : ε → σ → History ε C V → Prop}
  {s : σ} {h : History ε C V}

@[simp] theorem wp_pure (a : α) :
    wp (pure a : Coroutine σ ε C V α) Q E s h ↔ Q a s h := Iff.rfl

@[simp] theorem wp_throw (e : ε) :
    wp (throw e : Coroutine σ ε C V α) Q E s h ↔ E e s h := Iff.rfl

@[simp] theorem wp_bind (p : Coroutine σ ε C V β) (f : β → Coroutine σ ε C V α) :
    wp (p >>= f) Q E s h ↔ wp p (fun b s' h' => wp (f b) Q E s' h') E s h := by
  change wp (p.bind f) Q E s h ↔ _
  induction p generalizing s h with
  | ret b => exact Iff.rfl
  | raise e => exact Iff.rfl
  | get next ih => exact ih s
  | put s' next ih => exact ih
  | await c next ih => exact forall_congr' (fun r => ih r)

@[simp] theorem wp_tryCatch (p : Coroutine σ ε C V α) (f : ε → Coroutine σ ε C V α) :
    wp (tryCatch p f) Q E s h ↔ wp p Q (fun e s' h' => wp (f e) Q E s' h') s h := by
  change wp (handle p f) Q E s h ↔ _
  induction p generalizing s h with
  | ret a => exact Iff.rfl
  | raise e => exact Iff.rfl
  | get next ih => exact ih s
  | put s' next ih => exact ih
  | await c next ih => exact forall_congr' (fun r => ih r)

@[simp] theorem wp_read {Q : σ → σ → History ε C V → Prop} :
    wp (read : Coroutine σ ε C V σ) Q E s h ↔ Q s s h := Iff.rfl

@[simp] theorem wp_modify {Q : Unit → σ → History ε C V → Prop} (f : σ → σ) :
    wp (modify f : Coroutine σ ε C V Unit) Q E s h ↔ Q () (f s) h := Iff.rfl

@[simp] theorem wp_perform (c : C) {Q : V c → σ → History ε C V → Prop} :
    wp (perform c : Coroutine σ ε C V (V c)) Q E s h ↔
      (∀ v, Q v s (h ++ [⟨c, .ok v⟩])) ∧ ∀ e, E e s (h ++ [⟨c, .error e⟩]) := by
  constructor
  · intro hp
    exact ⟨fun v => hp (.ok v), fun e => hp (.error e)⟩
  · rintro ⟨hv, he⟩ (e | v)
    · exact he e
    · exact hv v

@[simp] theorem wp_ite (c : Prop) [Decidable c] (p q : Coroutine σ ε C V α) :
    wp (if c then p else q) Q E s h ↔ (c → wp p Q E s h) ∧ (¬c → wp q Q E s h) := by
  split_ifs with hc <;> simp [hc]

end Rules

theorem wp_seq {p : Coroutine σ ε C V β} {f : β → Coroutine σ ε C V α}
    {R : β → σ → History ε C V → Prop} {Q : α → σ → History ε C V → Prop}
    {E : ε → σ → History ε C V → Prop} {s : σ} {h : History ε C V}
    (hp : wp p R E s h) (hf : ∀ b s' h', R b s' h' → wp (f b) Q E s' h') :
    wp (p >>= f) Q E s h := by
  rw [wp_bind]
  exact wp_mono hp hf (fun _ _ _ he => he)

/-- The loop rule. The invariant speaks of the elements already visited. -/
theorem wp_forM {f : ι → Coroutine σ ε C V PUnit} {E : ε → σ → History ε C V → Prop}
    (I : List ι → σ → History ε C V → Prop) (xs : List ι)
    (step : ∀ done x rest s h, xs = done ++ x :: rest → I done s h →
      wp (f x) (fun _ s' h' => I (done ++ [x]) s' h') E s h)
    {s : σ} {h : History ε C V} (hI : I [] s h) :
    wp (xs.forM f) (fun _ s' h' => I xs s' h') E s h := by
  have loop : ∀ rest done s h, xs = done ++ rest → I done s h →
      wp (rest.forM f) (fun _ s' h' => I xs s' h') E s h := by
    intro rest
    induction rest with
    | nil =>
      intro done s h hxs hd
      have hdone : xs = done := by simpa using hxs
      rw [hdone]
      exact hd
    | cons x rest ih =>
      intro done s h hxs hd
      change wp (f x >>= fun _ => rest.forM f) _ _ s h
      rw [wp_bind]
      apply wp_mono (step done x rest s h hxs hd)
      · intro _ s' h' hd'
        exact ih (done ++ [x]) s' h' (by simpa using hxs) hd'
      · exact fun _ _ _ he => he
  exact loop xs [] s h rfl hI

/-! ### Frame conditions -/

/-- From the state `s` on, whatever other tasks do to the shared state during an await, `p`
leaves its view `f` as it finds it. -/
def KeepsFrom {δ : Type} (f : σ → δ) : Coroutine σ ε C V α → σ → Prop
  | .ret _, _ => True
  | .raise _, _ => True
  | .get next, s => KeepsFrom f (next s) s
  | .put s' next, s => f s' = f s ∧ KeepsFrom f next s'
  | .await _ next, _ => ∀ r s, KeepsFrom f (next r) s

def Keeps {δ : Type} (f : σ → δ) (p : Coroutine σ ε C V α) : Prop := ∀ s, KeepsFrom f p s

section Keeps
variable {δ : Type} {f : σ → δ} {p : Coroutine σ ε C V β} {g : β → Coroutine σ ε C V α}

theorem KeepsFrom.bind {s : σ} (hp : KeepsFrom f p s) (hg : ∀ b, Keeps f (g b)) :
    KeepsFrom f (p >>= g) s := by
  change KeepsFrom f (p.bind g) s
  induction p generalizing s with
  | ret b => exact hg b s
  | raise e => trivial
  | get next ih => exact ih s hp
  | put s' next ih => exact ⟨hp.1, ih hp.2⟩
  | await c next ih => exact fun r s' => ih r (hp r s')

theorem KeepsFrom.tryCatch {s : σ} {q : ε → Coroutine σ ε C V β} (hp : KeepsFrom f p s)
    (hq : ∀ e, Keeps f (q e)) : KeepsFrom f (tryCatch p q) s := by
  change KeepsFrom f (handle p q) s
  induction p generalizing s with
  | ret b => trivial
  | raise e => exact hq e s
  | get next ih => exact ih s hp
  | put s' next ih => exact ⟨hp.1, ih hp.2⟩
  | await c next ih => exact fun r s' => ih r (hp r s')

theorem Keeps.pure (f : σ → δ) (a : α) : Keeps f (pure a : Coroutine σ ε C V α) :=
  fun _ => trivial

theorem Keeps.throw (f : σ → δ) (e : ε) : Keeps f (throw e : Coroutine σ ε C V α) :=
  fun _ => trivial

theorem Keeps.bind (hp : Keeps f p) (hg : ∀ b, Keeps f (g b)) : Keeps f (p >>= g) :=
  fun s => (hp s).bind hg

theorem Keeps.tryCatch {q : ε → Coroutine σ ε C V β} (hp : Keeps f p) (hq : ∀ e, Keeps f (q e)) :
    Keeps f (tryCatch p q) :=
  fun s => (hp s).tryCatch hq

theorem Keeps.read (f : σ → δ) : Keeps f (read : Coroutine σ ε C V σ) := fun _ => trivial

theorem Keeps.modify {m : σ → σ} (hm : ∀ s, f (m s) = f s) :
    Keeps f (modify m : Coroutine σ ε C V Unit) := fun s => ⟨hm s, trivial⟩

theorem Keeps.perform (f : σ → δ) (c : C) : Keeps f (perform c : Coroutine σ ε C V (V c)) := by
  rintro _ (e | v) _
  · trivial
  · trivial

theorem Keeps.ite {c : Prop} [Decidable c] {q : Coroutine σ ε C V β} (hp : Keeps f p)
    (hq : Keeps f q) : Keeps f (if c then p else q) := by
  split_ifs
  · exact hp
  · exact hq

theorem Keeps.forM {xs : List ι} {b : ι → Coroutine σ ε C V PUnit} (hb : ∀ x, Keeps f (b x)) :
    Keeps f (xs.forM b) := by
  induction xs with
  | nil => exact .pure f _
  | cons x xs ih => exact .bind (hb x) fun _ => ih

theorem Keeps.comp {γ : Type} (hp : Keeps f p) (g : δ → γ) : Keeps (fun s => g (f s)) p := by
  intro s
  have hs : KeepsFrom f p s := hp s
  clear hp
  induction p generalizing s with
  | ret b => trivial
  | raise e => trivial
  | get next ih => exact ih s s hs
  | put s' next ih => exact ⟨congrArg g hs.1, ih s' hs.2⟩
  | await c next ih => exact fun r s' => ih r s' (hs r s')

theorem KeepsFrom.exec {s : σ} (hp : KeepsFrom f p s) (O : Oracle ε C V) (h : History ε C V) :
    f (exec O p s h).2.1 = f s := by
  induction p generalizing s h with
  | ret b => rfl
  | raise e => rfl
  | get next ih => exact ih s hp h
  | put s' next ih => exact (ih hp.2 h).trans hp.1
  | await c next ih => exact ih _ (hp _ s) _

end Keeps

end Coroutine
