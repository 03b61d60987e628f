import NovaFederation.SagaSteps
import NovaFederation.SyncPoll

/-!
# The preflight check of an image

`preflight_check` looks at the features of the image and at the lag of its mirror. It never
looks at the state of the mirror, and a bound of zero is replaced by the configured default.
-/

namespace NovaFederation
open Coroutine CephRBDClient History

/-- The mirror of the image is enabled and up, and is at most `m` bytes behind. -/
def RbdAnswers.Safe (a : RbdAnswers) (m : ℤ) : Prop :=
  ∃ info status, a.info = .ok info ∧ a.polls 0 = .ok status ∧ info.mirroringEnabled = true ∧
    PyString.startsWith status.state "up+" = true ∧ status.lagBytes ≤ m

/-- A check that passes finds the image safe. -/
def PreflightSound (d : ℤ) (a : RbdAnswers) (m : ℤ) : Prop :=
  ∀ pool image reason,
    (run a.world (preflightCheck ⟨d⟩ pool image (some m)) ()).1 = .ok (true, reason) → a.Safe m

def RbdAnswers.UpWithin (d : ℤ) (a : RbdAnswers) (m : ℤ) : Prop :=
  ∀ info status, a.info = .ok info → a.polls 0 = .ok status → info.mirroringEnabled = true →
    status.lagBytes ≤ threshold ⟨d⟩ (some m) →
      PyString.startsWith status.state "up+" = true ∧ (m ≠ 0 ∨ status.lagBytes ≤ 0)

def MigrationType.stepPreflight : MigrationType → Settings → Engine Unit
  | .cold => ColdMigrationEngine.stepPreflight
  | .live => LiveMigrationEngine.stepPreflight

def PassedAt (d : ℤ) (kind : MigrationType) (cfg : Settings) (ctx : MigrationContext)
    (storage : Trace → RbdAnswers) (O : World) (pre : Trace) (image : String) : Prop :=
  let out := run (backed ⟨d⟩ storage O) (kind.stepPreflight cfg) (EngineState.init ctx)
  out.1 = .ok () ∧ image ∈ out.2.1.ctx.rbdImages ∧ ∃ reason,
    pre ++ [⟨.preflightCheck cfg.pool image cfg.migrationMaxLagBytes, .ok (true, reason)⟩] <+:
      out.2.2

/-- An engine that passes the preflight has checked every image and found each safe. -/
def PassesSafely (d : ℤ) (kind : MigrationType) (cfg : Settings) (ctx : MigrationContext)
    (storage : Trace → RbdAnswers) (O : World) : Prop :=
  let out := run (backed ⟨d⟩ storage O) (kind.stepPreflight cfg) (EngineState.init ctx)
  (out.1 = .ok () → ∀ image ∈ out.2.1.ctx.rbdImages,
      ∃ pre, PassedAt d kind cfg ctx storage O pre image) ∧
    ∀ pre image, PassedAt d kind cfg ctx storage O pre image →
      (storage pre).Safe cfg.migrationMaxLagBytes

/-! ### One check -/

section Check
variable {cfg : CephConfig} {a : RbdAnswers} {O : CephWorld} {c : CephCall} {s : Unit}
  {h : CephTrace}

theorem exec_orCephError_of_ok {v : c.Reply} (hO : O h c = .ok v) :
    exec O (orCephError (rbd c)) s h = (.ok (.ok v), s, h ++ [⟨c, .ok v⟩]) := by
  rw [orCephError, exec_tryCatch, map_eq_pure_bind, exec_bind, exec_perform_of_ok hO]
  rfl

theorem exec_orCephError_of_error {e : PyException} (hO : O h c = .error e) :
    exec O (orCephError (rbd c)) s h =
      (if e.kind = .cephError then .ok (.error e) else .error e, s, h ++ [⟨c, .error e⟩]) := by
  rw [orCephError, exec_tryCatch, map_eq_pure_bind, exec_bind, exec_perform_of_error hO]
  dsimp only
  split_ifs with hkind
  · rfl
  · rfl

/-- A check passes when the image is mirrored and its mirror is within the threshold. -/
theorem preflightCheck_ok_iff (cfg : CephConfig) (a : RbdAnswers) (pool image : String)
    (maxLag : Option ℤ) (reason : String) :
    (run a.world (preflightCheck cfg pool image maxLag) ()).1 = .ok (true, reason) ↔
      reason = "ok" ∧ ∃ info status, a.info = .ok info ∧ a.polls 0 = .ok status ∧
        info.mirroringEnabled = true ∧ status.lagBytes ≤ threshold cfg maxLag := by
  have hrefused : ∀ text, (.ok (false, text) : Except PyException (Bool × String)) ≠
      .ok (true, reason) := by simp
  unfold run preflightCheck
  cases hinfo : a.info with
  | error e =>
    have hO : a.world [] (.getImageInfo pool image) = .error e := hinfo
    refine iff_of_false ?_ (by simp)
    rw [exec_bind, exec_orCephError_of_error hO]
    by_cases hkind : e.kind = .cephError
    · rw [if_pos hkind]
      exact hrefused _
    · rw [if_neg hkind]
      nofun
  | ok info =>
    have hO : a.world [] (.getImageInfo pool image) = .ok info := hinfo
    rw [exec_bind, exec_orCephError_of_ok hO]
    dsimp only
    by_cases henabled : info.mirroringEnabled = true
    · simp only [henabled, Bool.not_true, Bool.false_eq_true, if_false]
      cases hpoll : a.polls 0 with
      | error e =>
        have hO' : a.world [⟨.getImageInfo pool image, .ok info⟩] (.getMirrorStatus pool image) =
            .error e := hpoll
        refine iff_of_false ?_ (by simp)
        rw [List.nil_append, exec_bind, exec_orCephError_of_error hO']
        by_cases hkind : e.kind = .cephError
        · rw [if_pos hkind]
          exact hrefused _
        · rw [if_neg hkind]
          nofun
      | ok status =>
        have hO' : a.world [⟨.getImageInfo pool image, .ok info⟩] (.getMirrorStatus pool image) =
            .ok status := hpoll
        rw [List.nil_append, exec_bind, exec_orCephError_of_ok hO']
        dsimp only
        by_cases hlag : threshold cfg maxLag < status.lagBytes
        · rw [if_pos hlag]
          refine iff_of_false (hrefused _) ?_
          rintro ⟨-, _, _, ⟨rfl⟩, ⟨rfl⟩, -, hle⟩
          exact absurd hle (Int.not_le.2 hlag)
        · rw [if_neg hlag]
          constructor
          · rintro ⟨rfl⟩
            exact ⟨rfl, info, status, rfl, rfl, henabled, Int.not_lt.1 hlag⟩
          · rintro ⟨rfl, -⟩
            rfl
    · refine iff_of_false ?_ ?_
      · simp only [henabled, Bool.not_false, if_true]
        exact hrefused _
      · simp [henabled]

theorem le_iff_of_le_threshold {d m lagBytes : ℤ} (h : lagBytes ≤ threshold ⟨d⟩ (some m)) :
    lagBytes ≤ m ↔ m ≠ 0 ∨ lagBytes ≤ 0 := by
  unfold threshold at h
  by_cases hm : m = 0
  · simp [hm]
  · simp only [ne_eq, hm, not_false_iff, if_true] at h
    simp [hm, h]

theorem safe_iff_of_ok {d m : ℤ} {pool image reason : String}
    (h : (run a.world (preflightCheck ⟨d⟩ pool image (some m)) ()).1 = .ok (true, reason)) :
    a.Safe m ↔ a.UpWithin d m := by
  obtain ⟨-, info, status, hinfo, hpoll, henabled, hlag⟩ := (preflightCheck_ok_iff ..).1 h
  constructor
  · rintro ⟨info', status', hinfo', hpoll', -, hup, hle⟩ _ _ hi hp - -
    obtain rfl := Except.ok.inj (hinfo'.symm.trans hi)
    obtain rfl := Except.ok.inj (hpoll'.symm.trans hp)
    obtain rfl := Except.ok.inj (hpoll.symm.trans hp)
    exact ⟨hup, (le_iff_of_le_threshold hlag).1 hle⟩
  · intro hwithin
    obtain ⟨hup, hle⟩ := hwithin info status hinfo hpoll henabled hlag
    exact ⟨info, status, hinfo, hpoll, henabled, hup, (le_iff_of_le_threshold hlag).2 hle⟩

end Check

theorem preflightSound_iff (d : ℤ) (a : RbdAnswers) (m : ℤ) :
    PreflightSound d a m ↔ a.UpWithin d m := by
  constructor
  · intro hs info status hinfo hpoll henabled hlag
    have hok : (run a.world (preflightCheck ⟨d⟩ "rbd" "volume-a" (some m)) ()).1 =
        .ok (true, "ok") :=
      (preflightCheck_ok_iff ..).2 ⟨rfl, info, status, hinfo, hpoll, henabled, hlag⟩
    exact (safe_iff_of_ok hok).1 (hs _ _ _ hok) info status hinfo hpoll henabled hlag
  · intro hwithin pool image reason hok
    exact (safe_iff_of_ok hok).2 hwithin

/-! ### Both engines -/

section Engine
variable {d : ℤ} {kind : MigrationType} {cfg : Settings} {ctx : MigrationContext}
  {storage : Trace → RbdAnswers} {O : World}

theorem wp_stepPreflight_passed (kind : MigrationType) (cfg : Settings) (ctx : MigrationContext) :
    wp (kind.stepPreflight cfg) (fun _ s h => PreflightPassed cfg s.ctx.plan h)
      (fun _ _ _ => True) (EngineState.init ctx) [] := by
  have hpassed : wp (kind.stepPreflight cfg)
      (fun _ s h => Going kind cfg s.ctx.plan s h ∧ PreflightPassed cfg s.ctx.plan h ∧
        Untouched s h)
      (fun _ s h => Stopped kind cfg s.ctx.plan s h) (EngineState.init ctx) [] := by
    cases kind with
    | cold =>
      rw [MigrationType.stepPreflight, ColdMigrationEngine.stepPreflight]
      exact @wp_preflight .cold cfg _ _ rfl rfl rfl
    | live =>
      rw [MigrationType.stepPreflight, LiveMigrationEngine.stepPreflight]
      exact @wp_preflight .live cfg _ _ rfl rfl rfl
  exact wp_mono hpassed (fun _ _ _ hq => hq.2.1) fun _ _ _ _ => trivial

theorem checked_of_event {p : Engine Unit} {s : EngineState} {pre : Trace} {pool image : String}
    {maxLag : ℕ} {reason : String}
    (h : pre ++ [⟨.preflightCheck pool image maxLag, .ok (true, reason)⟩] <+:
      (run (backed ⟨d⟩ storage O) p s).2.2) :
    (run (storage pre).world (preflightCheck ⟨d⟩ pool image (some maxLag)) ()).1 =
      .ok (true, reason) := by
  have hreply := reply_of_run h
  simp only [backed] at hreply
  exact hreply.symm

theorem checked_of_passed {out : Outcome EngineState PyException Call Call.Reply Unit}
    (hout : run (backed ⟨d⟩ storage O) (kind.stepPreflight cfg) (EngineState.init ctx) = out)
    (hok : out.1 = .ok ()) {image : String} (himage : image ∈ out.2.1.ctx.rbdImages) :
    ∃ pre, PassedAt d kind cfg ctx storage O pre image := by
  obtain ⟨r, s, h⟩ := out
  obtain rfl : r = .ok () := hok
  have hpassed := (wp_exec _ (wp_stepPreflight_passed kind cfg ctx)).1 () s h hout
  obtain ⟨e, he, reason, rfl⟩ := hpassed.checked image himage
  obtain ⟨pre, post, rfl⟩ := List.append_of_mem he
  refine ⟨pre, ?_⟩
  unfold PassedAt
  rw [hout]
  exact ⟨rfl, himage, reason, post, by simp⟩

theorem passesSafely_iff : PassesSafely d kind cfg ctx storage O ↔
    ∀ pre image, PassedAt d kind cfg ctx storage O pre image →
      (storage pre).UpWithin d cfg.migrationMaxLagBytes := by
  have hiff : ∀ pre image, PassedAt d kind cfg ctx storage O pre image →
      ((storage pre).Safe cfg.migrationMaxLagBytes ↔
        (storage pre).UpWithin d cfg.migrationMaxLagBytes) := by
    rintro pre image ⟨-, -, reason, hpre⟩
    exact safe_iff_of_ok (checked_of_event hpre)
  constructor
  · rintro ⟨-, hsafe⟩ pre image hpassed
    exact (hiff pre image hpassed).1 (hsafe pre image hpassed)
  · intro hwithin
    refine ⟨fun hok image himage => checked_of_passed rfl hok himage, fun pre image hpassed => ?_⟩
    exact (hiff pre image hpassed).2 (hwithin pre image hpassed)

end Engine

theorem preflight_sound_iff (d : ℤ) :
    (∀ a m, PreflightSound d a m ↔ a.UpWithin d m) ∧
      ∀ kind cfg ctx storage O, PassesSafely d kind cfg ctx storage O ↔
        ∀ pre image, PassedAt d kind cfg ctx storage O pre image →
          (storage pre).UpWithin d cfg.migrationMaxLagBytes :=
  ⟨preflightSound_iff d, fun _ _ _ _ _ => passesSafely_iff⟩

def mirrored : RBDImageInfo := ⟨"volume-a", "rbd", 0, ["journaling"], true, "enabled"⟩

/-- A mirror that is down passes, and so does one that is behind when none may be. -/
theorem not_preflight_sound :
    ¬ PreflightSound 52428800 ⟨.ok mirrored, fun _ => .ok (mirrorStatus "down+unknown" 0)⟩
        52428800 ∧
      ¬ PreflightSound 52428800 ⟨.ok mirrored, fun _ => .ok (mirrorStatus "up+replaying" 4096)⟩
        0 := by
  constructor
  · intro hs
    obtain ⟨_, _, -, ⟨rfl⟩, -, hup, -⟩ := hs "rbd" "volume-a" "ok" rfl
    revert hup
    decide
  · intro hs
    obtain ⟨_, _, -, ⟨rfl⟩, -, -, hle⟩ := hs "rbd" "volume-a" "ok" rfl
    revert hle
    decide

end NovaFederation
