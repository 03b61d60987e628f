import NovaFederation.CoroutineLogic

/-!
# Two tasks on one event loop

`settle` runs a coroutine to its next await or to its end; nothing else happens meanwhile. A
`Loop` holds the shared state, a main task, and a peer that may be called at any moment when
the main task is waiting or has ended. A turn answers the call of one of the two.

`Calls`, `RaisesOn` and `ReturnsOn` speak of every await that a coroutine can come to, whatever
the other task does to the shared state in between.
-/

namespace Coroutine
variable {σ ε C : Type} {V : C → Type} {α β ι δ : Type}

inductive Paused (σ ε C : Type) (V : C → Type) (α : Type) where
  | done (result : Except ε α)
  | waiting (c : C) (next : Except ε (V c) → Coroutine σ ε C V α)

def settle : σ → Coroutine σ ε C V α → σ × Paused σ ε C V α
  | s, .ret a => (s, .done (.ok a))
  | s, .raise e => (s, .done (.error e))
  | s, .get next => settle s (next s)
  | _, .put s next => settle s next
  | s, .await c next => (s, .waiting c next)

theorem settle_bind (s : σ) (p : Coroutine σ ε C V β) (g : β → Coroutine σ ε C V α) :
    settle s (p >>= g) = match settle s p with
      | (s', .done (.ok b)) => settle s' (g b)
      | (s', .done (.error e)) => (s', .done (.error e))
      | (s', .waiting c next) => (s', .waiting c (fun r => next r >>= g)) := by
  change settle s (p.bind g) = _
  induction p generalizing s with
  | ret b => rfl
  | raise e => rfl
  | get next ih => exact ih s s
  | put s' next ih => exact ih s'
  | await c next ih => rfl

theorem settle_tryCatch (s : σ) (p : Coroutine σ ε C V α) (g : ε → Coroutine σ ε C V α) :
    settle s (tryCatch p g) = match settle s p with
      | (s', .done (.ok a)) => (s', .done (.ok a))
      | (s', .done (.error e)) => settle s' (g e)
      | (s', .waiting c next) => (s', .waiting c (fun r => tryCatch (next r) g)) := by
  change settle s (handle p g) = _
  induction p generalizing s with
  | ret a => rfl
  | raise e => rfl
  | get next ih => exact ih s s
  | put s' next ih => exact ih s'
  | await c next ih => rfl

/-- A run is a segment and, after the reply, the run of what is left. -/
theorem exec_settle (O : Oracle ε C V) (p : Coroutine σ ε C V α) (s : σ) (h : History ε C V) :
    exec O p s h = match settle s p with
      | (s', .done r) => (r, s', h)
      | (s', .waiting c next) => exec O (next (O h c)) s' (h ++ [⟨c, O h c⟩]) := by
  induction p generalizing s with
  | ret a => rfl
  | raise e => rfl
  | get next ih => exact ih s s
  | put s' next ih => exact ih s'
  | await c next ih => rfl

structure Suspended (σ ε C : Type) (V : C → Type) (α : Type) where
  call : C
  next : Except ε (V call) → Coroutine σ ε C V α
  reply : Option (Except ε (V call)) := none

theorem settle_perform_bind (s : σ) (c : C) (k : V c → Coroutine σ ε C V α) :
    settle s (perform c >>= k) = (s, .waiting c fun r => ofExcept r >>= k) := rfl

/-! ### The loop -/

abbrev Answers (ε C : Type) (V : C → Type) := (c : C) → Except ε (V c)

structure Loop (σ ε C : Type) (V : C → Type) (α β : Type) where
  state : σ
  history : History ε C V
  main : Paused σ ε C V α
  peer : Option (Paused σ ε C V β)

inductive Turn (ε C : Type) (V : C → Type) where
  | main (answers : Answers ε C V)
  | peer (answers : Answers ε C V)

namespace Loop

def start (s : σ) (p : Coroutine σ ε C V α) : Loop σ ε C V α β :=
  ⟨(settle s p).1, [], (settle s p).2, none⟩

def call (q : Coroutine σ ε C V β) (l : Loop σ ε C V α β) : Loop σ ε C V α β :=
  { l with state := (settle l.state q).1, peer := some (settle l.state q).2 }

def resume (answers : Answers ε C V) (l : Loop σ ε C V α β) : Loop σ ε C V α β :=
  match l.main with
  | .done _ => l
  | .waiting c next => { l with
      state := (settle l.state (next (answers c))).1
      history := l.history ++ [⟨c, answers c⟩]
      main := (settle l.state (next (answers c))).2 }

def resumeAll (before : List (Answers ε C V)) (l : Loop σ ε C V α β) : Loop σ ε C V α β :=
  before.foldl (fun l answers => l.resume answers) l

def resumePeer (answers : Answers ε C V) (l : Loop σ ε C V α β) : Loop σ ε C V α β :=
  match l.peer with
  | some (.waiting c next) => { l with
      state := (settle l.state (next (answers c))).1
      history := l.history ++ [⟨c, answers c⟩]
      peer := some (settle l.state (next (answers c))).2 }
  | _ => l

def turn (l : Loop σ ε C V α β) : Turn ε C V → Loop σ ε C V α β
  | .main answers => l.resume answers
  | .peer answers => l.resumePeer answers

theorem resumePeer_main (answers : Answers ε C V) (l : Loop σ ε C V α β) :
    (l.resumePeer answers).main = l.main := by
  unfold resumePeer
  split
  · rfl
  · rfl

theorem turn_main_of_done {l : Loop σ ε C V α β} {r : Except ε α} (hl : l.main = .done r)
    (t : Turn ε C V) : (l.turn t).main = .done r := by
  cases t with
  | main answers =>
    simp only [turn, resume, hl]
  | peer answers => exact (resumePeer_main answers l).trans hl

end Loop

/-! ### What a waiting task can come to -/

/-- Every await of the coroutine is for a call in `F`. -/
def Calls (F : C → Prop) : Coroutine σ ε C V α → Prop
  | .ret _ => True
  | .raise _ => True
  | .get next => ∀ s, Calls F (next s)
  | .put _ next => Calls F next
  | .await c next => F c ∧ ∀ r, Calls F (next r)

/-- The coroutine raises before its next await and leaves the view `f` as it was. -/
def Quits (f : σ → δ) (p : Coroutine σ ε C V α) : Prop :=
  ∀ s, ∃ s' e, settle s p = (s', .done (.error e)) ∧ f s' = f s

/-- Every await is for a call in `F`, and a reply in `X` makes the coroutine quit. -/
def RaisesOn (F : C → Prop) (X : (c : C) → Except ε (V c) → Prop) (f : σ → δ) :
    Coroutine σ ε C V α → Prop
  | .ret _ => True
  | .raise _ => True
  | .get next => ∀ s, RaisesOn F X f (next s)
  | .put _ next => RaisesOn F X f next
  | .await c next => F c ∧ (∀ r, X c r → Quits f (next r)) ∧ ∀ r, RaisesOn F X f (next r)

/-- The coroutine returns only right after a reply in `W`. -/
def ReturnsOn (W : (c : C) → Except ε (V c) → Prop) : Coroutine σ ε C V α → Prop
  | .ret _ => False
  | .raise _ => True
  | .get next => ∀ s, ReturnsOn W (next s)
  | .put _ next => ReturnsOn W next
  | .await c next => ∀ r, ReturnsOn W (next r) ∨ W c r ∧ ∃ a, next r = .ret a

section Calls
variable {F : C → Prop} {p : Coroutine σ ε C V β} {g : β → Coroutine σ ε C V α}

theorem Calls.pure (F : C → Prop) (a : α) : Calls F (pure a : Coroutine σ ε C V α) := trivial

theorem Calls.throw (F : C → Prop) (e : ε) : Calls F (throw e : Coroutine σ ε C V α) := trivial

theorem Calls.read (F : C → Prop) : Calls F (read : Coroutine σ ε C V σ) := fun _ => trivial

theorem Calls.modify (F : C → Prop) (m : σ → σ) :
    Calls F (modify m : Coroutine σ ε C V Unit) := fun _ => trivial

theorem Calls.perform {c : C} (hc : F c) : Calls F (perform c : Coroutine σ ε C V (V c)) := by
  refine ⟨hc, ?_⟩
  intro hq
  rcases hq with e | v
  · trivial
  · trivial

theorem Calls.bind (hp : Calls F p) (hg : ∀ b, Calls F (g b)) : Calls F (p >>= g) := by
  change Calls F (p.bind g)
  induction p with
  | ret b => exact hg b
  | raise e => trivial
  | get next ih => exact fun s => ih s (hp s)
  | put s' next ih => exact ih hp
  | await c next ih => exact ⟨hp.1, fun r => ih r (hp.2 r)⟩

theorem Calls.tryCatch {q : ε → Coroutine σ ε C V β} (hp : Calls F p) (hq : ∀ e, Calls F (q e)) :
    Calls F (tryCatch p q) := by
  change Calls F (handle p q)
  induction p with
  | ret b => trivial
  | raise e => exact hq e
  | get next ih => exact fun s => ih s (hp s)
  | put s' next ih => exact ih hp
  | await c next ih => exact ⟨hp.1, fun r => ih r (hp.2 r)⟩

theorem Calls.ite {c : Prop} [Decidable c] {q : Coroutine σ ε C V β} (hp : Calls F p)
    (hq : Calls F q) : Calls F (if c then p else q) := by
  split_ifs
  · exact hp
  · exact hq

theorem Calls.forM {xs : List ι} {b : ι → Coroutine σ ε C V PUnit}
    (hb : ∀ x ∈ xs, Calls F (b x)) : Calls F (xs.forM b) := by
  induction xs with
  | nil => trivial
  | cons x xs ih =>
    rw [List.forall_mem_cons] at hb
    exact .bind hb.1 fun _ => ih hb.2

theorem Calls.settle (hp : Calls F p) (s s' : σ) {c : C}
    {next : Except ε (V c) → Coroutine σ ε C V β} (hs : settle s p = (s', .waiting c next)) :
    F c ∧ ∀ r, Calls F (next r) := by
  induction p generalizing s with
  | ret b => cases hs
  | raise e => cases hs
  | get q ih => exact ih s (hp s) s hs
  | put t q ih => exact ih hp t hs
  | await c' q ih =>
    cases hs
    exact hp

end Calls

section RaisesOn
variable {F : C → Prop} {X : (c : C) → Except ε (V c) → Prop} {f : σ → δ}
  {p : Coroutine σ ε C V β} {g : β → Coroutine σ ε C V α}

theorem Quits.throw (f : σ → δ) (e : ε) : Quits f (throw e : Coroutine σ ε C V α) :=
  fun s => ⟨s, e, rfl, rfl⟩

theorem Quits.bind (hp : Quits f p) : Quits f (p >>= g) := by
  intro s
  obtain ⟨s', e, hs, hf⟩ := hp s
  refine ⟨s', e, ?_, hf⟩
  rw [settle_bind, hs]

theorem RaisesOn.pure (a : α) : RaisesOn F X f (pure a : Coroutine σ ε C V α) := trivial

theorem RaisesOn.throw (e : ε) : RaisesOn F X f (throw e : Coroutine σ ε C V α) := trivial

theorem RaisesOn.read : RaisesOn F X f (read : Coroutine σ ε C V σ) := fun _ => trivial

theorem RaisesOn.modify (m : σ → σ) :
    RaisesOn F X f (modify m : Coroutine σ ε C V Unit) := fun _ => trivial

theorem RaisesOn.bind (hp : RaisesOn F X f p) (hg : ∀ b, RaisesOn F X f (g b)) :
    RaisesOn F X f (p >>= g) := by
  change RaisesOn F X f (p.bind g)
  induction p with
  | ret b => exact hg b
  | raise e => trivial
  | get next ih => exact fun s => ih s (hp s)
  | put s' next ih => exact ih hp
  | await c next ih => exact ⟨hp.1, fun r hr => (hp.2.1 r hr).bind, fun r => ih r (hp.2.2 r)⟩

theorem RaisesOn.perform_bind {c : C} {k : V c → Coroutine σ ε C V α} (hc : F c)
    (hx : ∀ v, X c (.ok v) → Quits f (k v)) (hk : ∀ v, RaisesOn F X f (k v)) :
    RaisesOn F X f (perform c >>= k) := by
  refine ⟨hc, ?_, ?_⟩
  · rintro (e | v) hr
    · exact .throw f e
    · exact hx v hr
  · intro hq
    rcases hq with e | v
    · trivial
    · exact hk v

theorem RaisesOn.perform {c : C} (hc : F c) (hx : ∀ v, ¬ X c (.ok v)) :
    RaisesOn F X f (perform c : Coroutine σ ε C V (V c)) := by
  refine ⟨hc, ?_, ?_⟩
  · rintro (e | v) hr
    · exact .throw f e
    · exact absurd hr (hx v)
  · intro hq
    rcases hq with e | v
    · trivial
    · trivial

theorem RaisesOn.of_calls (hp : Calls (fun c => F c ∧ ∀ r, ¬ X c r) p) : RaisesOn F X f p := by
  induction p with
  | ret b => trivial
  | raise e => trivial
  | get next ih => exact fun s => ih s (hp s)
  | put s' next ih => exact ih hp
  | await c next ih =>
    exact ⟨hp.1.1, fun r hr => absurd hr (hp.1.2 r), fun r => ih r (hp.2 r)⟩

theorem RaisesOn.ite {c : Prop} [Decidable c] {q : Coroutine σ ε C V β} (hp : RaisesOn F X f p)
    (hq : RaisesOn F X f q) : RaisesOn F X f (if c then p else q) := by
  split_ifs
  · exact hp
  · exact hq

theorem RaisesOn.forM {xs : List ι} {b : ι → Coroutine σ ε C V PUnit}
    (hb : ∀ x, RaisesOn F X f (b x)) : RaisesOn F X f (xs.forM b) := by
  induction xs with
  | nil => trivial
  | cons x xs ih => exact .bind (hb x) fun _ => ih

theorem RaisesOn.settle (hp : RaisesOn F X f p) (s s' : σ) {c : C}
    {next : Except ε (V c) → Coroutine σ ε C V β} (hs : settle s p = (s', .waiting c next)) :
    F c ∧ (∀ r, X c r → Quits f (next r)) ∧ ∀ r, RaisesOn F X f (next r) := by
  induction p generalizing s with
  | ret b => cases hs
  | raise e => cases hs
  | get q ih => exact ih s (hp s) s hs
  | put t q ih => exact ih hp t hs
  | await c' q ih =>
    cases hs
    exact hp

end RaisesOn

section ReturnsOn
variable {W : (c : C) → Except ε (V c) → Prop} {p : Coroutine σ ε C V β}
  {g : β → Coroutine σ ε C V α}

theorem ReturnsOn.bind (hg : ∀ b, ReturnsOn W (g b)) : ReturnsOn W (p >>= g) := by
  change ReturnsOn W (p.bind g)
  induction p with
  | ret b => exact hg b
  | raise e => trivial
  | get next ih => exact ih
  | put s' next ih => exact ih
  | await c next ih => exact fun r => .inl (ih r)

theorem ReturnsOn.perform_pure {c : C} {a : α} (hc : ∀ v, W c (.ok v)) :
    ReturnsOn W (perform c >>= fun _ => (pure a : Coroutine σ ε C V α)) := by
  intro hq
  rcases hq with e | v
  · exact .inl trivial
  · exact .inr ⟨hc v, a, rfl⟩

theorem ReturnsOn.settle_ne {a : β} (hp : ReturnsOn W p) (s : σ) :
    (settle s p).2 ≠ .done (.ok a) := by
  induction p generalizing s with
  | ret b => exact hp.elim
  | raise e => exact nofun
  | get next ih => exact ih s (hp s) s
  | put s' next ih => exact ih hp s'
  | await c next ih => exact nofun

theorem ReturnsOn.settle (hp : ReturnsOn W p) (s s' : σ) {c : C}
    {next : Except ε (V c) → Coroutine σ ε C V β} (hs : settle s p = (s', .waiting c next)) :
    ∀ r, ReturnsOn W (next r) ∨ W c r ∧ ∃ a, next r = .ret a := by
  induction p generalizing s with
  | ret b => exact hp.elim
  | raise e => cases hs
  | get q ih => exact ih s (hp s) s hs
  | put t q ih => exact ih hp t hs
  | await c' q ih =>
    cases hs
    exact hp

end ReturnsOn

/-! ### Segments and frames -/

def Paused.Keeps (f : σ → δ) : Paused σ ε C V α → Prop
  | .done _ => True
  | .waiting _ next => ∀ r, Coroutine.Keeps f (next r)

theorem KeepsFrom.settle {f : σ → δ} {p : Coroutine σ ε C V α} {s : σ} (hp : KeepsFrom f p s) :
    f (settle s p).1 = f s ∧ (settle s p).2.Keeps f := by
  induction p generalizing s with
  | ret a => exact ⟨rfl, trivial⟩
  | raise e => exact ⟨rfl, trivial⟩
  | get next ih => exact ih s hp
  | put s' next ih => exact ⟨(ih hp.2).1.trans hp.1, (ih hp.2).2⟩
  | await c next ih => exact ⟨rfl, hp⟩

/-! ### A task alone -/

theorem Calls.mono {F G : C → Prop} {p : Coroutine σ ε C V α} (hp : Calls F p)
    (h : ∀ c, F c → G c) : Calls G p := by
  induction p with
  | ret a => trivial
  | raise e => trivial
  | get next ih => exact fun s => ih s (hp s)
  | put s' next ih => exact ih hp
  | await c next ih => exact ⟨h c hp.1, fun r => ih r (hp.2 r)⟩

theorem Keeps.const (d : δ) (p : Coroutine σ ε C V α) : Keeps (fun _ => d) p := by
  intro s
  induction p generalizing s with
  | ret a => trivial
  | raise e => trivial
  | get next ih => exact ih s s
  | put s' next ih => exact ⟨rfl, ih s'⟩
  | await c next ih => exact fun r s' => ih r s'

/-- The frame rule: what the calls in `F` preserve of a history and a view that the coroutine
leaves as it is holds after it. -/
theorem wp_frame {F : C → Prop} {f : σ → δ} {p : Coroutine σ ε C V α} (hp : Calls F p)
    (hk : Keeps f p) (I : δ → History ε C V → Prop)
    (hI : ∀ d h e, F e.call → I d h → I d (h ++ [e])) {s : σ} {h : History ε C V}
    (hs : I (f s) h) :
    wp p (fun _ s' h' => I (f s') h') (fun _ s' h' => I (f s') h') s h := by
  have hks : KeepsFrom f p s := hk s
  clear hk
  induction p generalizing s h with
  | ret a => exact hs
  | raise e => exact hs
  | get next ih => exact ih s (hp s) hs hks
  | put s' next ih => exact ih hp (hks.1 ▸ hs) hks.2
  | await c next ih => exact fun r => ih r (hp.2 r) (hI _ _ _ hp.1 hs) (hks r s)

theorem wp_calls {F : C → Prop} {p : Coroutine σ ε C V α} (hp : Calls F p)
    (I : History ε C V → Prop) (hI : ∀ h e, F e.call → I h → I (h ++ [e])) {s : σ}
    {h : History ε C V} (hs : I h) : wp p (fun _ _ h' => I h') (fun _ _ h' => I h') s h :=
  wp_frame hp (Keeps.const () p) (fun _ => I) (fun _ => hI) hs

end Coroutine
