import NovaFederation.ColdSaga
import NovaFederation.LiveSaga

/-!
# Runs of an engine

A `Run` is what a call of `run()` leaves behind: its result, the engine object and the trace
of the answered calls. `report` reads the end of any run off the two preceding modules, and
the lemmas after it say what the three ends have in common.
-/

namespace NovaFederation
open History Coroutine

structure Run where
  result : Except PyException Bool
  state : EngineState
  trace : Trace

/-- Create the engine of a migration and await its `run()` in a world. -/
def MigrationType.migrate (kind : MigrationType) (cfg : Settings) (ctx : MigrationContext)
    (O : World) : Run :=
  let out := Coroutine.run O (kind.run cfg) (EngineState.init ctx)
  ⟨out.1, out.2.1, out.2.2⟩

variable {kind : MigrationType} {cfg : Settings} {ctx : MigrationContext} {O : World}
  {p : Plan} {h : Trace}

theorem sound_body (kind : MigrationType) (cfg : Settings) (ctx : MigrationContext) :
    Sound kind cfg (kind.body cfg) ctx := by
  cases kind with
  | cold => exact ColdMigrationEngine.sound_body ctx
  | live => exact LiveMigrationEngine.sound_body ctx

theorem report (kind : MigrationType) (cfg : Settings) (ctx : MigrationContext) (O : World) :
    Report kind cfg (kind.migrate cfg ctx O).result (kind.migrate cfg ctx O).state
      (kind.migrate cfg ctx O).trace := by
  have hwp := wp_guarded (sound_body kind cfg ctx)
  rw [← MigrationType.run_eq] at hwp
  obtain ⟨hok, herr⟩ := wp_exec O hwp
  rcases hout : Coroutine.run O (kind.run cfg) (EngineState.init ctx) with ⟨e | b, s, h⟩
  · simp only [MigrationType.migrate, hout]
    exact herr e s h hout
  · simp only [MigrationType.migrate, hout]
    exact hok b s h hout

/-! ### Runs whose body raises -/

/-- An exception leaves the `try` body, in the state `s₀` and after the trace `h₀`. -/
def BodyRaises (kind : MigrationType) (cfg : Settings) (ctx : MigrationContext) (O : World)
    (e : PyException) (s₀ : EngineState) (h₀ : Trace) : Prop :=
  Coroutine.run O (kind.body cfg) (EngineState.init ctx) = (.error e, s₀, h₀)

theorem BodyRaises.stopped {e : PyException} {s₀ : EngineState} {h₀ : Trace}
    (hb : BodyRaises kind cfg ctx O e s₀ h₀) : Stopped kind cfg s₀.ctx.plan s₀ h₀ :=
  (wp_exec O (sound_body kind cfg ctx)).2 e s₀ h₀ hb

theorem BodyRaises.migrate_eq {e : PyException} {s₀ : EngineState} {h₀ : Trace}
    (hb : BodyRaises kind cfg ctx O e s₀ h₀) :
    kind.migrate cfg ctx O =
      ⟨(exec O (MigrationEngine.compensate cfg e) s₀ h₀).1,
        (exec O (MigrationEngine.compensate cfg e) s₀ h₀).2.1,
        (exec O (MigrationEngine.compensate cfg e) s₀ h₀).2.2⟩ := by
  have hrun : Coroutine.run O (kind.run cfg) (EngineState.init ctx) =
      exec O (MigrationEngine.compensate cfg e) s₀ h₀ := by
    have hbody : exec O (kind.body cfg) (EngineState.init ctx) [] = (.error e, s₀, h₀) := hb
    rw [Coroutine.run, MigrationType.run_eq, MigrationEngine.guarded, exec_tryCatch, hbody]
  rw [MigrationType.migrate, hrun]

theorem BodyRaises.raised {e x : PyException} {s₀ : EngineState} {h₀ : Trace}
    (hb : BodyRaises kind cfg ctx O e s₀ h₀) (hO : O h₀ (.fail e.message) = .error x) :
    (kind.migrate cfg ctx O).result = .error x := by
  rw [hb.migrate_eq]
  dsimp only
  change (exec O (Coroutine.bind (ofExcept (O h₀ (.fail e.message))) _) _ _).1 = _
  rw [hO]
  rfl

theorem BodyRaises.ends {e : PyException} {s₀ : EngineState} {h₀ : Trace}
    (hb : BodyRaises kind cfg ctx O e s₀ h₀) :
    O h₀ (.fail e.message) = .ok () ∧ (kind.migrate cfg ctx O).result = .ok false ∧
        RolledBack kind cfg e.message s₀ h₀ (kind.migrate cfg ctx O).state
          (kind.migrate cfg ctx O).trace ∨
      ∃ x, O h₀ (.fail e.message) = .error x ∧
        Unrecorded kind cfg e.message s₀ h₀ (kind.migrate cfg ctx O).state
          (kind.migrate cfg ctx O).trace := by
  have hout := exec_consistent O (MigrationEngine.compensate cfg e) s₀ h₀
  obtain ⟨hok, herr⟩ := wp_exec O (wp_compensate (e := e) hb.stopped)
  rw [hb.migrate_eq]
  rcases hex : exec O (MigrationEngine.compensate cfg e) s₀ h₀ with ⟨x | b, s, h⟩
  · rw [hex] at hout
    have hun := herr x s h hex
    obtain ⟨y, hy⟩ := hun.tail
    have hreply := hout h₀ ⟨.fail e.message, .error y⟩ [] hy (Nat.le_refl _)
    exact .inr ⟨y, hreply.symm, hun⟩
  · rw [hex] at hout
    obtain ⟨rfl, hrb⟩ := hok b s h hex
    obtain ⟨t, ht, -⟩ := hrb.tail
    have hreply := hout h₀ ⟨.fail e.message, .ok ()⟩ t ht (Nat.le_refl _)
    exact .inl ⟨hreply.symm, rfl, hrb⟩

theorem migrate_of_returned {b : Bool} {s : EngineState} {h : Trace}
    (hout : Coroutine.run O (kind.body cfg) (EngineState.init ctx) = (.ok b, s, h)) :
    kind.migrate cfg ctx O = ⟨.ok true, s, h⟩ ∧ Finished kind cfg s h := by
  obtain ⟨rfl, hfin⟩ := (wp_exec O (sound_body kind cfg ctx)).1 b s h hout
  have hrun : Coroutine.run O (kind.run cfg) (EngineState.init ctx) = (.ok true, s, h) := by
    have hbody : exec O (kind.body cfg) (EngineState.init ctx) [] = (.ok true, s, h) := hout
    rw [Coroutine.run, MigrationType.run_eq, MigrationEngine.guarded, exec_tryCatch, hbody]
  rw [MigrationType.migrate, hrun]
  exact ⟨rfl, hfin⟩

/-- A run that returns `False` is one whose body raised and whose failure was recorded. -/
theorem rolledBack_of_false (hres : (kind.migrate cfg ctx O).result = .ok false) :
    ∃ e s₀ h₀, BodyRaises kind cfg ctx O e s₀ h₀ ∧
      RolledBack kind cfg e.message s₀ h₀ (kind.migrate cfg ctx O).state
        (kind.migrate cfg ctx O).trace := by
  rcases hout : Coroutine.run O (kind.body cfg) (EngineState.init ctx) with ⟨e | b, s, h⟩
  · have hb : BodyRaises kind cfg ctx O e s h := hout
    rcases hb.ends with ⟨-, -, hrb⟩ | ⟨x, hO, -⟩
    · exact ⟨e, s, h, hb, hrb⟩
    · rw [hb.raised hO] at hres
      cases hres
  · rw [(migrate_of_returned hout).1] at hres
    cases hres

theorem returned_of_true (hres : (kind.migrate cfg ctx O).result = .ok true) :
    Coroutine.run O (kind.body cfg) (EngineState.init ctx) =
      (.ok true, (kind.migrate cfg ctx O).state, (kind.migrate cfg ctx O).trace) := by
  rcases hout : Coroutine.run O (kind.body cfg) (EngineState.init ctx) with ⟨e | b, s, h⟩
  · have hb : BodyRaises kind cfg ctx O e s h := hout
    rcases hb.ends with ⟨-, hfalse, -⟩ | ⟨x, hO, -⟩
    · rw [hfalse] at hres
      cases hres
    · rw [hb.raised hO] at hres
      cases hres
  · obtain ⟨rfl, -⟩ := (wp_exec O (sound_body kind cfg ctx)).1 b s h hout
    rw [(migrate_of_returned hout).1]

theorem wp_of_true (kind : MigrationType) {Q : Bool → EngineState → Trace → Prop}
    {E : PyException → EngineState → Trace → Prop}
    (hbody : wp (kind.body cfg) Q E (EngineState.init ctx) [])
    (hres : (kind.migrate cfg ctx O).result = .ok true) :
    Q true (kind.migrate cfg ctx O).state (kind.migrate cfg ctx O).trace :=
  (wp_exec O hbody).1 _ _ _ (returned_of_true hres)

theorem forward_or_raises (kind : MigrationType) (cfg : Settings) (ctx : MigrationContext)
    (O : World) : (∀ e ∈ (kind.migrate cfg ctx O).trace, e.call.isForward = true) ∨
      ∃ e s₀ h₀, BodyRaises kind cfg ctx O e s₀ h₀ := by
  rcases hout : Coroutine.run O (kind.body cfg) (EngineState.init ctx) with ⟨e | b, s, h⟩
  · exact .inr ⟨e, s, h, hout⟩
  · obtain ⟨hrun, hfin⟩ := migrate_of_returned hout
    rw [hrun]
    exact .inl fun e he => (hfin.done.clean e he).1

/-- A run is its `try` body and after it calls that no step makes. -/
theorem migrate_extends_body (kind : MigrationType) (cfg : Settings) (ctx : MigrationContext)
    (O : World) : ∃ t, (kind.migrate cfg ctx O).trace =
        (Coroutine.run O (kind.body cfg) (EngineState.init ctx)).2.2 ++ t ∧
      ∀ e ∈ t, e.call.isForward = false := by
  rcases hout : Coroutine.run O (kind.body cfg) (EngineState.init ctx) with ⟨e | b, s, h⟩
  · have hb : BodyRaises kind cfg ctx O e s h := hout
    rcases hb.ends with ⟨-, -, hrb⟩ | ⟨x, -, hun⟩
    · obtain ⟨t, ht, hi, -⟩ := hrb.tail
      refine ⟨_, ht, fun a ha => ?_⟩
      rcases List.mem_cons.1 ha with rfl | ha
      · rfl
      · obtain ⟨rb, -, hi⟩ := hi a ha
        exact hi.not_forward
    · obtain ⟨y, hy⟩ := hun.tail
      refine ⟨_, hy, fun a ha => ?_⟩
      rw [List.mem_singleton.1 ha]
      rfl
  · obtain ⟨hrun, -⟩ := migrate_of_returned hout
    rw [hrun]
    exact ⟨[], (List.append_nil _).symm, by simp⟩

theorem migrate_keeps_plan (kind : MigrationType) (cfg : Settings) (ctx : MigrationContext)
    (O : World) : (kind.migrate cfg ctx O).state.ctx.plan =
      (Coroutine.run O (kind.body cfg) (EngineState.init ctx)).2.1.ctx.plan := by
  rcases hout : Coroutine.run O (kind.body cfg) (EngineState.init ctx) with ⟨e | b, s, h⟩
  · have hb : BodyRaises kind cfg ctx O e s h := hout
    rcases hb.ends with ⟨-, -, hrb⟩ | ⟨x, -, hun⟩
    · exact hrb.stopped.plan.symm
    · exact hun.stopped.plan.symm
  · rw [(migrate_of_returned hout).1]

/-- What holds wherever the body ends, and of the failure record and the handlers with it, holds
of every run. -/
theorem migrate_of_body (kind : MigrationType) (I : Plan → Trace → Prop)
    (hbody : wp (kind.body cfg) (fun _ s h => I s.ctx.plan h) (fun _ s h => I s.ctx.plan h)
      (EngineState.init ctx) [])
    (htail : ∀ p h e, e.call.isForward = false → I p h → I p (h ++ [e])) (O : World) :
    I (kind.migrate cfg ctx O).state.ctx.plan (kind.migrate cfg ctx O).trace := by
  obtain ⟨t, ht, hforward⟩ := migrate_extends_body kind cfg ctx O
  rw [ht, migrate_keeps_plan]
  clear ht
  induction t using List.reverseRecOn with
  | nil =>
    rw [List.append_nil]
    exact wp_exec_end hbody O
  | append_singleton t e ih =>
    rw [← List.append_assoc]
    exact htail _ _ e (hforward e (by simp))
      (ih fun a ha => hforward a (List.mem_append_left _ ha))

theorem Report.law {r : Except PyException Bool} {s : EngineState} (hr : Report kind cfg r s h) :
    Respects (Law kind cfg s.ctx.plan) h := by
  rcases r with e | _ | _
  · obtain ⟨_, _, _, hu⟩ := hr
    exact hu.law
  · obtain ⟨_, _, _, hb⟩ := hr
    exact hb.law
  · exact Done.law (Finished.done hr)

theorem law_run (kind : MigrationType) (cfg : Settings) (ctx : MigrationContext) (O : World) :
    Respects (Law kind cfg (kind.migrate cfg ctx O).state.ctx.plan)
      (kind.migrate cfg ctx O).trace :=
  (report kind cfg ctx O).law

/-! ### Reading the law -/

theorem forward_clean (hr : Respects (Law kind cfg p) h) {pre post : Trace} {e : CallEvent}
    (hh : h = pre ++ e :: post) (he : e.call.isForward = true) :
    Clean kind pre ∧ (e.call.isPreparation = false → PreflightPassed cfg p pre) ∧
      Needs kind cfg p pre e.call :=
  (law_forward he).1 (hr.at_split hh)

theorem mem_order {a b : CallEvent} (ha : a ∈ h) (hb : b ∈ h) (hab : a ≠ b) :
    (∃ pre post, h = pre ++ a :: post ∧ b ∈ pre) ∨ ∃ pre post, h = pre ++ b :: post ∧ a ∈ pre := by
  obtain ⟨pre, post, rfl⟩ := List.append_of_mem ha
  rcases List.mem_append.1 hb with hb | hb
  · exact .inl ⟨pre, post, rfl, hb⟩
  · rcases List.mem_cons.1 hb with rfl | hb
    · exact absurd rfl hab
    · obtain ⟨mid, post, rfl⟩ := List.append_of_mem hb
      exact .inr ⟨pre ++ a :: mid, post, by simp, by simp⟩

theorem forward_first (hr : Respects (Law kind cfg p) h) {a b : CallEvent} (ha : a ∈ h)
    (hb : b ∈ h) (hfa : a.call.isForward = true) (hfb : b.call.isForward = false) :
    ∃ pre post, h = pre ++ b :: post ∧ a ∈ pre := by
  have hab : a ≠ b := by
    rintro rfl
    simp [hfa] at hfb
  rcases mem_order ha hb hab with ⟨pre, post, hh, hb'⟩ | hord
  · have hcl := (forward_clean hr hh hfa).1
    have hbf := (hcl b hb').1
    simp [hfb] at hbf
  · exact hord

theorem RolledBack.forward_mem {error : String} {s₀ s : EngineState} {h₀ : Trace}
    (hb : RolledBack kind cfg error s₀ h₀ s h) {a : CallEvent} (ha : a ∈ h)
    (hf : a.call.isForward = true) : a ∈ h₀ := by
  obtain ⟨t, rfl, hi, -⟩ := hb.tail
  rcases List.mem_append.1 ha with ha | ha
  · exact ha
  · rcases List.mem_cons.1 ha with rfl | ha
    · cases hf
    · obtain ⟨rb, -, hi⟩ := hi a ha
      simp [hi.not_forward] at hf

end NovaFederation
