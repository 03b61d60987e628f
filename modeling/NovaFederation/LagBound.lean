import NovaFederation.Clusters
import NovaFederation.EventLoop
import NovaFederation.SyncPoll

/-!
# Explicit bounds on the lag

`wait_for_sync` and `preflight_check` replace a bound of zero by the configured default, since
zero is false. The cutover of a live migration asks for a lag of zero, and so demotes an image
whose mirror is behind by as much as the default admits.
-/

namespace NovaFederation
open Coroutine CephRBDClient History

/-! ### Bounds on the lag -/

/-- Whatever the polls answer, the status that is returned lags by at most `m`. -/
def Honoured (m d : ℤ) : Prop :=
  ∀ (pool image : String) (T p : ℤ) (a : RbdAnswers) (rounds : ℕ) (status : MirrorStatus),
    (run a.world (waitForSync ⟨d⟩ pool image (some m) T p rounds) ()).1 = .ok (some status) →
      status.lagBytes ≤ m

/-- An image is demoted right after a wait for it whose last poll reported no lag. -/
def Flushed (cfg : CephConfig) (storage : Trace → RbdAnswers) (pre : Trace) : Call → Prop
  | .demote pool image => ∃ pre' status t,
      pre = pre' ++ [⟨.waitForSync pool image (some 0) 60, .ok status⟩] ∧
      (waited cfg (storage pre') pool image (some 0) 60).2.2 =
        t ++ [⟨.getMirrorStatus pool image, .ok status⟩] ∧ status.lagBytes ≤ 0
  | _ => True

/-- The cutover demotes flushed images only, whatever the images are and the polls answer. -/
def CutoverFlushes (d : ℤ) : Prop :=
  ∀ (cfg : Settings) (storage : Trace → RbdAnswers) (O : World) (s : EngineState),
    Respects (Flushed ⟨d⟩ storage)
      (run (backed ⟨d⟩ storage O) (LiveMigrationEngine.stepCutover cfg) s).2.2

/-! ### The wait -/

section Wait
variable (cfg : CephConfig) (pool image : String) (maxLag : Option ℤ) (T p : ℤ)

/-- A status that is returned is the last one polled, and within the threshold. -/
def WithinThreshold (r : Option MirrorStatus) (h : CephTrace) : Prop :=
  ∀ status ∈ r, status.lagBytes ≤ threshold cfg maxLag ∧
    ∃ t, h = t ++ [⟨.getMirrorStatus pool image, .ok status⟩]

theorem wp_syncLoop (rounds : ℕ) (elapsed : ℤ) (last : Option MirrorStatus) (h : CephTrace) :
    wp (syncLoop cfg pool image maxLag T p rounds elapsed last)
      (fun r _ h' => WithinThreshold cfg pool image maxLag r h') (fun _ _ _ => True) () h := by
  induction rounds generalizing elapsed last h with
  | zero => exact nofun
  | succ rounds ih =>
    rw [syncLoop.eq_def]
    dsimp only
    by_cases ht : elapsed < T
    · rw [if_pos ht, wp_bind, wp_perform]
      refine ⟨fun status => ?_, fun _ => trivial⟩
      by_cases hlag : status.lagBytes ≤ threshold cfg maxLag
      · rw [if_pos hlag, wp_pure]
        rintro _ ⟨rfl⟩
        exact ⟨hlag, h, rfl⟩
      · rw [if_neg hlag, wp_bind, wp_perform]
        exact ⟨fun _ => ih _ _ _, fun _ => trivial⟩
    · rw [if_neg ht]
      cases last with
      | none => trivial
      | some status => trivial

theorem withinThreshold_waitForSync (O : CephWorld) (rounds : ℕ) {status : MirrorStatus}
    (hout : (run O (waitForSync cfg pool image maxLag T p rounds) ()).1 = .ok (some status)) :
    WithinThreshold cfg pool image maxLag (some status)
      (run O (waitForSync cfg pool image maxLag T p rounds) ()).2.2 :=
  (wp_exec O (wp_syncLoop cfg pool image maxLag T p rounds 0 none [])).1 _ _ _
    (Prod.ext hout rfl)

end Wait

theorem threshold_le_iff {m d : ℤ} : threshold ⟨d⟩ (some m) ≤ m ↔ m ≠ 0 ∨ d ≤ 0 := by
  unfold threshold
  by_cases hm : m ≠ 0
  · simp [hm]
  · obtain rfl := not_ne_iff.1 hm
    simp

def lagging (lagBytes : ℤ) : RbdAnswers where
  info := .error ⟨.cephError, "rbd command failed: "⟩
  polls _ := .ok (mirrorStatus "up+replaying" lagBytes)

theorem settles_lagging {bound lagBytes : ℤ} (h : lagBytes ≤ bound) :
    settles bound ((lagging lagBytes).polls 0) = true := decide_eq_true h

theorem honoured_iff (m d : ℤ) : Honoured m d ↔ m ≠ 0 ∨ d ≤ 0 := by
  rw [← threshold_le_iff]
  constructor
  · intro hh
    -- a mirror that is behind by the threshold is waited for no longer
    have hout := run_waitForSync_at_once "rbd" "volume-a" ⟨d⟩ (some m) (p := 1)
      Nat.one_pos Int.one_pos (settles_lagging (Int.le_refl (threshold ⟨d⟩ (some m))))
    exact hh _ _ 1 1 _ 1 _ hout
  · intro hle pool image T p a rounds status hout
    exact (withinThreshold_waitForSync ⟨d⟩ pool image (some m) T p a.world rounds hout
      status rfl).1.trans hle

/-! ### The cutover -/

def Awaited (pre : Trace) : Call → Prop
  | .demote pool image => ∃ pre' status,
      pre = pre' ++ [⟨.waitForSync pool image (some 0) 60, .ok status⟩]
  | _ => True

theorem calls_promoteAll_undemoted (cfg : Settings) :
    Calls (fun c => ∀ pool image, c ≠ .demote pool image) (MigrationEngine.promoteAll cfg) := by
  refine .bind (.read _) fun _ => .forM fun image _ => .ite ?_ (.perform ?_)
  · exact .bind (.perform (by simp)) fun _ => .pure _ _
  · simp

theorem awaited_of_ne {pre : Trace} {c : Call} (hc : ∀ pool image, c ≠ .demote pool image) :
    Awaited pre c := by
  cases c with
  | demote pool image => exact absurd rfl (hc pool image)
  | _ => trivial

theorem wp_stepCutover_awaited (cfg : Settings) (s : EngineState) :
    wp (LiveMigrationEngine.stepCutover cfg) (fun _ _ h => Respects Awaited h)
      (fun _ _ h => Respects Awaited h) s [] := by
  have hsnoc : ∀ (h : Trace) (e : CallEvent), Respects Awaited h →
      (∀ pool image, e.call ≠ .demote pool image) → Respects Awaited (h ++ [e]) :=
    fun h e hr he => respects_snoc.2 ⟨hr, awaited_of_ne he⟩
  unfold LiveMigrationEngine.stepCutover
  apply wp_seq (R := fun _ _ h => Respects Awaited h)
  · rw [MigrationEngine.transition, wp_bind, wp_modify, wp_perform]
    exact ⟨fun _ => hsnoc _ _ (respects_nil _) (by simp),
      fun _ => hsnoc _ _ (respects_nil _) (by simp)⟩
  intro _ s₁ h₁ hr₁
  rw [wp_bind, wp_read]
  apply wp_seq (wp_forM (fun _ _ h => Respects Awaited h) _ ?_ hr₁)
  · intro _ s₂ h₂ hr₂
    rw [wp_bind, MigrationEngine.registerRollback, wp_modify]
    exact wp_calls (calls_promoteAll_undemoted cfg) (Respects Awaited)
      (fun h e he hr => hsnoc h e hr he) hr₂
  · intro done image rest s h _ hr
    rw [wp_bind, wp_perform]
    refine ⟨fun status => ?_, fun e => hsnoc _ _ hr (by simp)⟩
    have hwait := hsnoc h ⟨.waitForSync cfg.pool image (some 0) 60, .ok status⟩ hr (by simp)
    rw [wp_perform]
    exact ⟨fun _ => respects_snoc.2 ⟨hwait, h, status, rfl⟩,
      fun _ => respects_snoc.2 ⟨hwait, h, status, rfl⟩⟩

theorem waited_of_backed {cfg : CephConfig} {storage : Trace → RbdAnswers} {O : World} {h : Trace}
    {pool image : String} {maxLag : Option ℕ} {T : ℕ} {status : MirrorStatus}
    (hO : backed cfg storage O h (.waitForSync pool image maxLag T) = .ok status) :
    (waited cfg (storage h) pool image maxLag T).1 = .ok (some status) := by
  unfold backed at hO
  dsimp only at hO
  split at hO
  · next hout =>
    rw [hout, Except.ok.inj hO]
  · cases hO
  · cases hO

theorem awaited_stepCutover (cfg : Settings) (O : World) (s : EngineState) :
    Respects Awaited (run O (LiveMigrationEngine.stepCutover cfg) s).2.2 := by
  obtain ⟨hok, herror⟩ := wp_exec O (wp_stepCutover_awaited cfg s)
  rcases hout : run O (LiveMigrationEngine.stepCutover cfg) s with ⟨e | v, s', h⟩
  · exact herror e s' h hout
  · exact hok v s' h hout

def oneImage : EngineState := .init { connected .live with rbdImages := ["volume-a"] }

/-- The image is demoted at once when its mirror is behind by no more than the default. -/
theorem demoted_lagging (d : ℤ) :
    [⟨.transition .run .cutover 80, .ok ()⟩,
      ⟨.waitForSync "rbd" "volume-a" (some 0) 60, .ok (mirrorStatus "up+replaying" d)⟩,
      ⟨.demote "rbd" "volume-a", .ok ()⟩] <+:
    (run (backed ⟨d⟩ (fun _ => lagging d) (cooperative twoVolumes))
      (LiveMigrationEngine.stepCutover settings) oneImage).2.2 := by
  have hwait : ∀ h, backed ⟨d⟩ (fun _ => lagging d) (cooperative twoVolumes) h
      (.waitForSync "rbd" "volume-a" (some 0) 60) = .ok (mirrorStatus "up+replaying" d) := by
    intro h
    have hout : (waited ⟨d⟩ (lagging d) "rbd" "volume-a" (some 0) 60).1 =
        .ok (some (mirrorStatus "up+replaying" d)) :=
      run_waitForSync_at_once "rbd" "volume-a" ⟨d⟩ (some 0) (by decide) (by decide)
        (settles_lagging (Int.le_refl d))
    simp only [backed, hout]
  generalize hW : backed ⟨d⟩ (fun _ => lagging d) (cooperative twoVolumes) = W at hwait ⊢
  have hdemote : ∀ h, W h (.demote "rbd" "volume-a") = .ok () := hW ▸ fun _ => rfl
  have htransition : W [] (.transition .run .cutover 80) = .ok () := hW ▸ rfl
  have hloop : ∀ (s : EngineState) (h : Trace), exec W (["volume-a"].forM fun image => do
        let _ ← await (.waitForSync settings.pool image (some 0) 60)
        await (.demote settings.pool image)) s h =
      (.ok (), s, h ++ [⟨.waitForSync "rbd" "volume-a" (some 0) 60,
        .ok (mirrorStatus "up+replaying" d)⟩] ++ [⟨.demote "rbd" "volume-a", .ok ()⟩]) := by
    intro s h
    change exec W ((await (.waitForSync "rbd" "volume-a" (some 0) 60) >>= fun _ =>
      await (.demote "rbd" "volume-a")) >>= fun _ => pure ()) s h = _
    rw [exec_bind, exec_bind, exec_perform_of_ok (hwait h)]
    dsimp only
    rw [exec_perform_of_ok (hdemote _)]
    rfl
  have hentered : ∃ s : EngineState, s.ctx.rbdImages = ["volume-a"] ∧
      exec W (MigrationEngine.transition .run .cutover 80) oneImage [] =
        (.ok (), s, [⟨.transition .run .cutover 80, .ok ()⟩]) :=
    ⟨_, rfl, exec_perform_of_ok htransition _⟩
  obtain ⟨s, himages, hentered⟩ := hentered
  have hread (h : Trace) : exec W Coroutine.read s h = (.ok s, s, h) := rfl
  rw [run, LiveMigrationEngine.stepCutover, exec_bind, hentered]
  dsimp only
  rw [exec_bind, hread]
  dsimp only
  rw [himages, exec_bind, hloop]
  exact exec_extends _ _ _ _

theorem cutoverFlushes_iff (d : ℤ) : CutoverFlushes d ↔ d ≤ 0 := by
  constructor
  · intro hc
    have hdemote := hc settings (fun _ => lagging d) (cooperative twoVolumes) oneImage
      [⟨.transition .run .cutover 80, .ok ()⟩,
        ⟨.waitForSync "rbd" "volume-a" (some 0) 60, .ok (mirrorStatus "up+replaying" d)⟩]
      ⟨.demote "rbd" "volume-a", .ok ()⟩ (demoted_lagging d)
    obtain ⟨pre', status, t, hpre, -, hlag⟩ := hdemote
    obtain ⟨-, hlast⟩ := List.append_inj' (show [_] ++ [_] = pre' ++ [_] from hpre) rfl
    cases hlast
    exact hlag
  · intro hd cfg storage O s pre e hpre
    have hawaited := awaited_stepCutover cfg (backed ⟨d⟩ storage O) s pre e hpre
    obtain ⟨c, r⟩ := e
    cases c with
    | demote pool image =>
      obtain ⟨pre', status, rfl⟩ := hawaited
      have hreply := reply_of_run ((List.prefix_append _ _).trans hpre)
      have hwaited := waited_of_backed hreply.symm
      obtain ⟨hlag, t, ht⟩ := withinThreshold_waitForSync ⟨d⟩ pool image (some 0) 60 5
        (storage pre').world 61 hwaited status rfl
      exact ⟨pre', status, t, rfl, ht, hlag.trans hd⟩
    | _ => trivial

/-- For every bound and every default: the wait honours the bound, and the cutover the bound of
zero that it asks for. -/
theorem lag_bound_honoured_iff (m d : ℤ) :
    (Honoured m d ↔ m ≠ 0 ∨ d ≤ 0) ∧ (CutoverFlushes d ↔ d ≤ 0) :=
  ⟨honoured_iff m d, cutoverFlushes_iff d⟩

/-- With the default of 50 MiB a mirror that is a page behind is waited for no longer. -/
theorem not_lag_bound_honoured :
    (run (lagging 4096).world (waitForSync ⟨52428800⟩ "rbd" "volume-a" (some 0) 60 5 13) ()).1 =
        .ok (some (mirrorStatus "up+replaying" 4096)) ∧
      ¬ Honoured 0 52428800 ∧ ¬ CutoverFlushes 52428800 :=
  ⟨rfl, by simp [honoured_iff], by simp [cutoverFlushes_iff]⟩

end NovaFederation
