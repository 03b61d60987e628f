import NovaFederation.Phases
import NovaFederation.Clusters

/-!
# The states that a row goes through

Each step first writes its own state and after that no other, so the row walks along the path
that the engine documents. Where a step raises, the walk ends, in `failed` if that can be
written. Only the last transition writes `done`, and nothing comes after it.
-/

namespace NovaFederation
open History Coroutine MigrationEngine
variable {kind : MigrationType} {cfg : Settings} {ctx : MigrationContext} {O : World}
  {st st' : MigrationState} {visited : List MigrationState} {s : EngineState} {h t : Trace}

def stepPath : MigrationType → List MigrationState
  | .cold => [.pending, .preflight, .disk, .cutover, .bgp, .cleanup]
  | .live => [.pending, .preflight, .disk, .memory, .cutover, .bgp, .cleanup]

def documentedPath (kind : MigrationType) : List MigrationState := stepPath kind ++ [.done]

def stateHistory (h : Trace) : List MigrationState := changes rowApply .pending h

/-- A prefix of the documented path, or one without `done` that ends in `failed`. -/
def Conforms (kind : MigrationType) (states : List MigrationState) : Prop :=
  states <+: documentedPath kind ∨
    ∃ walked, walked <+: documentedPath kind ∧ .done ∉ walked ∧ states = walked ++ [.failed]

/-! ### One event -/

structure At (visited : List MigrationState) (st : MigrationState) (h : Trace) : Prop where
  row : rowState h = st
  history : stateHistory h = visited ++ [st]

theorem stateHistory_snoc (h : Trace) (e : CallEvent) :
    stateHistory (h ++ [e]) = if rowState h = rowApply (rowState h) e then stateHistory h
      else stateHistory h ++ [rowApply (rowState h) e] :=
  changes_snoc rowApply .pending h e

theorem At.stay (ha : At visited st h) {e : CallEvent} (he : rowApply st e = st) :
    At visited st (h ++ [e]) where
  row := by rw [rowState_snoc, ha.row, he]
  history := by
    rw [stateHistory_snoc, ha.row, he, if_pos rfl]
    exact ha.history

theorem At.enter (ha : At visited st h) {e : CallEvent} (he : rowApply st e = st')
    (hne : st ≠ st') : At (visited ++ [st]) st' (h ++ [e]) where
  row := by rw [rowState_snoc, ha.row, he]
  history := by
    rw [stateHistory_snoc, ha.row, he, if_neg hne, ha.history]

theorem at_start : At [] .pending [] := ⟨rfl, rfl⟩

theorem rowApply_within {e : CallEvent} (he : Within st e.call) : rowApply st e = st := by
  obtain ⟨c, r⟩ := e
  cases c <;> cases r <;> simp_all [Within, Call.within, rowApply]

theorem At.stays (ha : At visited st h) (ht : ∀ e ∈ t, rowApply st e = st) :
    At visited st (h ++ t) := by
  induction t using List.reverseRecOn with
  | nil => simpa using ha
  | append_singleton t e ih =>
    rw [← List.append_assoc]
    refine At.stay (ih fun a hm => ht a (List.mem_append_left _ hm)) (ht e ?_)
    simp

/-! ### One step -/

theorem wp_enter {progress : ℚ} (ha : At visited st h) (hne : st ≠ st') :
    wp (transition .run st' progress) (fun _ _ h' => At (visited ++ [st]) st' h')
      (fun _ _ h' => At visited st h') s h := by
  rw [transition, wp_bind, wp_modify, wp_perform]
  exact ⟨fun _ => ha.enter rfl hne, fun _ => ha.stay rfl⟩

/-- The row is somewhere on the path of the engine, before its end. -/
def Underway (kind : MigrationType) (h : Trace) : Prop :=
  ∃ visited st, At visited st h ∧ visited ++ [st] <+: stepPath kind

theorem wp_phase {step : Engine Unit} (ha : At visited st h) (hne : st ≠ st')
    (hp : visited ++ [st] ++ [st'] <+: stepPath kind)
    (hstep : IsStep st' step) :
    wp step (fun _ _ h' => At (visited ++ [st]) st' h') (fun _ _ h' => Underway kind h') s h := by
  obtain ⟨progress, rest, rfl⟩ := hstep.begins
  have hrest : Calls (Within st') rest := (hstep.calls s).2 (.ok ())
  apply wp_seq
  · apply wp_mono (wp_enter ha hne)
    · exact fun _ _ _ hq => hq
    · exact fun _ _ h' ha' => ⟨visited, st, ha', (List.prefix_append _ _).trans hp⟩
  · intro _ s' h' ha'
    apply wp_mono (wp_calls hrest (At (visited ++ [st]) st')
      (fun _ _ he ha => ha.stay (rowApply_within he)) ha')
    · exact fun _ _ _ hq => hq
    · exact fun _ _ h' ha' => ⟨_, _, ha', hp⟩

/-- What is asked of the rest of a body from a state of the path on. -/
def Walks (kind : MigrationType) (body : Engine Bool) (s : EngineState) (h : Trace) : Prop :=
  wp body (fun b _ h' => b = true → At (stepPath kind) .done h') (fun _ _ h' => Underway kind h')
    s h

theorem walks_done (ha : At visited st h) (hv : visited ++ [st] = stepPath kind)
    (hne : st ≠ .done) : Walks kind (do
      transition .run .done 100
      pure true) s h := by
  apply wp_seq
  · apply wp_mono (wp_enter ha hne)
    · exact fun _ _ _ hq => hq
    · exact fun _ _ h' ha' => ⟨visited, st, ha', hv ▸ List.prefix_rfl⟩
  · intro _ _ h' ha' _
    exact hv ▸ ha'

theorem ColdMigrationEngine.walks_body (ctx : MigrationContext) :
    Walks .cold (body cfg) (EngineState.init ctx) [] := by
  unfold Walks body steps
  apply wp_seq (wp_phase at_start (by decide) (by decide) (isStep_preflight _ _))
  intro _ s h₁ h₁'
  rw [wp_bind, wp_read, wp_ite]
  refine ⟨fun _ => nofun, fun _ => ?_⟩
  apply wp_seq (wp_phase h₁' (by decide) (by decide) isStep_stepDisk)
  intro _ _ h₂ h₂'
  apply wp_seq (wp_phase h₂' (by decide) (by decide) isStep_stepCutover)
  intro _ _ h₃ h₃'
  apply wp_seq (wp_phase h₃' (by decide) (by decide) isStep_stepBgp)
  intro _ _ h₄ h₄'
  apply wp_seq (wp_phase h₄' (by decide) (by decide) (isStep_cleanup 95))
  intro _ _ h₅ h₅'
  exact walks_done h₅' rfl (by decide)

theorem LiveMigrationEngine.walks_body (ctx : MigrationContext) :
    Walks .live (body cfg) (EngineState.init ctx) [] := by
  unfold Walks body steps
  apply wp_seq (wp_phase at_start (by decide) (by decide) (isStep_preflight _ _))
  intro _ s h₁ h₁'
  rw [wp_bind, wp_read, wp_ite]
  refine ⟨fun _ => nofun, fun _ => ?_⟩
  apply wp_seq (wp_phase h₁' (by decide) (by decide) isStep_stepDiskSync)
  intro _ _ h₂ h₂'
  apply wp_seq (wp_phase h₂' (by decide) (by decide) isStep_stepMemory)
  intro _ _ h₃ h₃'
  apply wp_seq (wp_phase h₃' (by decide) (by decide) isStep_stepCutover)
  intro _ _ h₄ h₄'
  apply wp_seq (wp_phase h₄' (by decide) (by decide) isStep_stepBgp)
  intro _ _ h₅ h₅'
  apply wp_seq (wp_phase h₅' (by decide) (by decide) (isStep_cleanup 96))
  intro _ _ h₆ h₆'
  exact walks_done h₆' rfl (by decide)

theorem walks_body (kind : MigrationType) (cfg : Settings) (ctx : MigrationContext) :
    Walks kind (kind.body cfg) (EngineState.init ctx) [] := by
  cases kind with
  | cold => exact ColdMigrationEngine.walks_body ctx
  | live => exact LiveMigrationEngine.walks_body ctx

/-! ### Runs -/

theorem mem_stepPath : st ∈ stepPath kind → st ≠ .done ∧ st ≠ .failed := by
  revert st
  cases kind <;> decide

theorem Underway.row (hu : Underway kind h) :
    rowState h ∈ stepPath kind ∧ stateHistory h <+: stepPath kind := by
  obtain ⟨visited, st, ha, hp⟩ := hu
  rw [ha.row, ha.history]
  exact ⟨hp.subset (by simp), hp⟩

theorem Underway.stay (hu : Underway kind h) {e : CallEvent} (he : ∀ row, rowApply row e = row) :
    Underway kind (h ++ [e]) := by
  obtain ⟨visited, st, ha, hp⟩ := hu
  exact ⟨visited, st, ha.stay (he st), hp⟩

theorem underway_of_raises {e : PyException} {s₀ : EngineState} {h₀ : Trace}
    (hb : BodyRaises kind cfg ctx O e s₀ h₀) : Underway kind h₀ :=
  (wp_exec O (walks_body kind cfg ctx)).2 e s₀ h₀ hb

theorem prefix_documentedPath {states : List MigrationState} (hs : states <+: stepPath kind) :
    states <+: documentedPath kind ∧ .done ∉ states :=
  ⟨hs.trans (List.prefix_append _ _), fun hm => (mem_stepPath (hs.subset hm)).1 rfl⟩

theorem rowApply_issued {rbs : List Rollback} {p : Plan} {e : CallEvent}
    (he : ∃ rb ∈ rbs, rb.issues cfg p e.call) (row : MigrationState) : rowApply row e = row := by
  obtain ⟨rb, -, hi⟩ := he
  obtain ⟨c, r⟩ := e
  dsimp only at hi
  obtain ⟨-, _, -, rfl⟩ | ⟨_, -, _, -, rfl | rfl⟩ | ⟨_, _, -, rfl⟩ := hi.call_cases
  · rfl
  · rfl
  · rfl
  · rfl

theorem RolledBack.at_failed {error : String} {s₀ s : EngineState} {h₀ : Trace}
    (hb : RolledBack kind cfg error s₀ h₀ s h) (hu : Underway kind h₀) :
    ∃ walked, walked <+: stepPath kind ∧ At walked .failed h := by
  obtain ⟨visited, st, ha, hp⟩ := hu
  obtain ⟨t, rfl, ht, -⟩ := hb.tail
  have hne : st ≠ .failed := (mem_stepPath (hp.subset (by simp))).2
  refine ⟨visited ++ [st], hp, ?_⟩
  have hf : At (visited ++ [st]) .failed (h₀ ++ [⟨.fail error, .ok ()⟩]) := ha.enter rfl hne
  have hrest := hf.stays (t := t) fun e he => rowApply_issued (ht e he) _
  rwa [List.append_assoc] at hrest

/-- Whatever fails, the row walks along the documented path, and the result tells where the walk
ended. -/
theorem state_history_conforms (kind : MigrationType) (cfg : Settings) (ctx : MigrationContext)
    (O : World) :
    Conforms kind (stateHistory (kind.migrate cfg ctx O).trace) ∧
      ((kind.migrate cfg ctx O).result = .ok true ↔
        rowState (kind.migrate cfg ctx O).trace = .done) ∧
      ((kind.migrate cfg ctx O).result = .ok false →
        rowState (kind.migrate cfg ctx O).trace = .failed) := by
  rcases hout : Coroutine.run O (kind.body cfg) (EngineState.init ctx) with ⟨e | b, s, h⟩
  · have hb : BodyRaises kind cfg ctx O e s h := hout
    have hu := underway_of_raises hb
    rcases hb.ends with ⟨-, hres, hrb⟩ | ⟨x, hO, hun⟩
    · obtain ⟨walked, hw, hf⟩ := hrb.at_failed hu
      obtain ⟨hpath, hdone⟩ := prefix_documentedPath hw
      rw [hres, hf.row, hf.history]
      exact ⟨.inr ⟨walked, hpath, hdone, rfl⟩, by simp, fun _ => rfl⟩
    · obtain ⟨y, htrace⟩ := hun.tail
      obtain ⟨hrow, hpath⟩ := (hu.stay (e := ⟨.fail e.message, .error y⟩) fun _ => rfl).row
      rw [hb.raised hO, htrace]
      refine ⟨.inl (prefix_documentedPath hpath).1, ?_, nofun⟩
      simpa using (mem_stepPath hrow).1
  · obtain ⟨rfl, -⟩ := (wp_exec O (sound_body kind cfg ctx)).1 b s h hout
    have ha : At (stepPath kind) .done h :=
      (wp_exec O (walks_body kind cfg ctx)).1 true s h hout rfl
    rw [(migrate_of_returned hout).1, ha.row, ha.history]
    exact ⟨.inl List.prefix_rfl, by simp, nofun⟩

end NovaFederation
