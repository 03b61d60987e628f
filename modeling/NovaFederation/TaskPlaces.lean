import NovaFederation.AbortShape
import NovaFederation.MonitorEnd
import NovaFederation.Registrations

/-!
# Where a waiting task is

`Place` says at which await of its `try` body a run waits, and `Rolling` at which await of a
handler a task waits that runs the handlers. Both are kept by every reply: what the task does
with it before its next await is read off the program that is left.
-/

namespace NovaFederation
open Coroutine MigrationEngine
variable {kind : MigrationType} {cfg : Settings} {s t : EngineState} {h k : Trace} {c : Call}

def Committed (c : Call) (r : Except PyException c.Reply) : Prop := commits ⟨c, r⟩ = true

namespace MigrationType

/-- The text with which the preflight step refuses a VM. -/
def refusal : MigrationType → String → VMDetails → String
  | .cold => fun vmId vm => s!"VM {vmId} is in state {vm.status}, expected ACTIVE or SHUTOFF"
  | .live => fun _ vm => s!"Live migration requires VM to be ACTIVE, got {vm.status}"

def steps : MigrationType → Settings → Engine Bool
  | .cold => ColdMigrationEngine.steps
  | .live => LiveMigrationEngine.steps

theorem raising_steps (kind : MigrationType) (cfg : Settings) : Raising kind (kind.steps cfg) := by
  cases kind with
  | cold => exact ColdMigrationEngine.raising_steps
  | live => exact LiveMigrationEngine.raising_steps

theorem keeps_steps (kind : MigrationType) (cfg : Settings) : Keeps steady (kind.steps cfg) := by
  cases kind with
  | cold => exact ColdMigrationEngine.keeps_steps oblivious_steady.toBlind routeBlind_steady
  | live => exact LiveMigrationEngine.keeps_steps oblivious_steady.toBlind

theorem enlists_steps (kind : MigrationType) (cfg : Settings) {images ips : List String}
    {n : Tally} {owed : Roster → Option Call → Prop} {s : EngineState}
    (hs : Square kind images ips (Demoting 0) n owed s) :
    Enlists kind images ips (kind.steps cfg) (closing EngineState.roster) n owed s := by
  cases kind with
  | cold => exact ColdMigrationEngine.enlists_steps hs
  | live => exact LiveMigrationEngine.enlists_steps hs

theorem watches_steps (kind : MigrationType) (cfg : Settings) {n : Wakes}
    {owed : Bool → Option Call → Prop} {s : EngineState} (hs : Watched (· = {}) n owed s) :
    Watches (kind.steps cfg) (closing EngineState.cancelled) n owed s := by
  cases kind with
  | cold => exact ColdMigrationEngine.watches_steps hs
  | live => exact LiveMigrationEngine.watches_steps hs

/-- Only the last transition is followed by a `return`. -/
theorem returns_steps (kind : MigrationType) (cfg : Settings) :
    ReturnsOn Committed (kind.steps cfg) := by
  have hlast : ReturnsOn Committed (transition .run .done 100 >>= fun _ =>
      (pure true : Engine Bool)) := by
    simp only [transition, bind_assoc]
    exact .bind fun _ => .perform_pure fun _ => rfl
  cases kind with
  | cold => exact .bind fun _ => .bind fun _ => .bind fun _ => .bind fun _ => hlast
  | live => exact .bind fun _ => .bind fun _ => .bind fun _ => .bind fun _ => .bind fun _ => hlast

end MigrationType

/-! ### What is left of the body after each await of the preflight -/

def afterPreflight (kind : MigrationType) (cfg : Settings) : Engine Bool := do
  let s ← read
  if s.aborted then
    pure false
  else
    kind.steps cfg

def verdict (image : String) : Bool × String → Engine Unit
  | (ok, reason) =>
    if ok then
      pure ()
    else
      throw ⟨.migrationError, s!"RBD preflight failed for {image}: {reason}"⟩

def checking (kind : MigrationType) (cfg : Settings) (images : List String) : Engine Bool := do
  images.forM fun image => do
    let answer ← await (.preflightCheck cfg.pool image cfg.migrationMaxLagBytes)
    verdict image answer
  afterPreflight kind cfg

def EngineState.withVm (s : EngineState) (vm : VMDetails) : EngineState :=
  { s with ctx := { s.ctx with vm := some vm } }

def EngineState.withImages (s : EngineState) (vm : VMDetails) : EngineState :=
  { s with ctx := { s.ctx with
    rbdImages := s.ctx.rbdImages ++ vm.volumeIds.map (s!"volume-{·}")
    vmIps := if vm.floatingIps.isEmpty then vm.ips else vm.floatingIps } }

def admitting (kind : MigrationType) (cfg : Settings) (vmId : String) (vm : VMDetails) :
    Engine Bool := do
  modify (·.withVm vm)
  if kind.admits vm.status then
    modify (·.withImages vm)
    let s ← read
    checking kind cfg s.ctx.rbdImages
  else
    throw ⟨.migrationError, kind.refusal vmId vm⟩

def fetching (kind : MigrationType) (cfg : Settings) : Engine Bool := do
  let s ← read
  let vm ← await (.getVm s.ctx.vmId)
  admitting kind cfg s.ctx.vmId vm

theorem body_eq (kind : MigrationType) (cfg : Settings) :
    kind.body cfg = transition .run .preflight 5 >>= fun _ => fetching kind cfg := by
  have hbody : kind.body cfg =
      preflight cfg kind.admits kind.refusal >>= fun _ => afterPreflight kind cfg := by
    cases kind <;> rfl
  rw [hbody, preflight]
  simp only [bind_assoc]
  refine bind_congr fun _ => bind_congr fun s => bind_congr fun vm => bind_congr fun _ => ?_
  by_cases hadm : kind.admits vm.status = true
  · rw [if_pos hadm, if_pos hadm]
    simp only [bind_assoc]
    rfl
  · rw [if_neg hadm, if_neg hadm]
    rfl

/-! ### The places of the body -/

def Call.isCheck : Call → Bool
  | .preflightCheck _ _ _ => true
  | _ => false

def checks (h : Trace) : ℕ := h.countP fun e => e.call.isCheck

theorem checks_snoc (h : Trace) (e : CallEvent) :
    checks (h ++ [e]) = checks h + if e.call.isCheck then 1 else 0 := by
  rw [checks, List.countP_append, List.countP_singleton]
  rfl

/-- No step but the preflight has made a call that is counted. -/
structure Unstarted (h : Trace) : Prop where
  demotes : Demoting 0 (tally h)
  asleep : wakes h = {}

theorem Unstarted.congr (hu : Unstarted h) (ht : tally k = tally h) (hw : wakes k = wakes h) :
    Unstarted k :=
  ⟨ht ▸ hu.demotes, hw.trans hu.asleep⟩

/-- The run waits for `c` and goes on as `next` says. -/
inductive Place (kind : MigrationType) (cfg : Settings) (s : EngineState) (h : Trace) :
    (c : Call) → (Except PyException c.Reply → Engine Bool) → Prop
  | opening (hn : checks h = 0) (hu : Unstarted h) :
    Place kind cfg s h (.transition .run .preflight 5) fun r =>
      ofExcept r >>= fun _ => fetching kind cfg
  | fetching (vmId : String) (hn : checks h = 0) (hu : Unstarted h) :
    Place kind cfg s h (.getVm vmId) fun r => ofExcept r >>= admitting kind cfg vmId
  | checking (image : String) (images : List String)
      (hn : checks h + images.length + 1 = s.ctx.rbdImages.length)
      (hu : Unstarted h) :
    Place kind cfg s h (.preflightCheck cfg.pool image cfg.migrationMaxLagBytes) fun r =>
      ofExcept r >>= fun answer => verdict image answer >>= fun _ => checking kind cfg images
  | stepping {c : Call} {next : Except PyException c.Reply → Engine Bool} (hc : Stepping c)
      (hquit : ∀ r, Escaping kind c r → Quits tallies (next r))
      (hraise : ∀ r, Raising kind (next r)) (hkeep : ∀ r, Keeps steady (next r))
      (hret : ∀ r, ReturnsOn Committed (next r) ∨ Committed c r ∧ ∃ b, next r = .ret b)
      (hreg : Pending kind s h c next) (hmon : Vigilant h c next) :
    Place kind cfg s h c next

structure Reaches (kind : MigrationType) (cfg : Settings) (s : EngineState) (h : Trace)
    (o : EngineState × Paused EngineState PyException Call Call.Reply Bool) : Prop where
  aborted : o.1.aborted = s.aborted
  attempted : o.1.attempted = s.attempted
  place : ∀ c next, o.2 = .waiting c next → Place kind cfg o.1 h c next

theorem reaches_ended (hab : t.aborted = s.aborted) (hat : t.attempted = s.attempted)
    (r : Except PyException Bool) : Reaches kind cfg s h (t, .done r) :=
  ⟨hab, hat, by simp⟩

theorem reaches_of_raising {p : Engine Bool} {images ips : List String}
    {owed : Roster → Option Call → Prop}
    (hp : Raising kind p) (hk : Keeps steady p) (hr : ReturnsOn Committed p)
    (hg : Enlists kind images ips p (closing EngineState.roster) (tally h) owed s)
    (ho : ∀ v o, owed v o → (enlistment kind images ips).rely v)
    {due : Bool → Option Call → Prop}
    (hm : Watches p (closing EngineState.cancelled) (wakes h) due s) :
    Reaches kind cfg s h (settle s p) := by
  obtain ⟨hsteady, hpaused⟩ := (hk s).settle
  refine ⟨congrArg (·.2.1) hsteady, congrArg (·.2.2) hsteady, fun c next hw => ?_⟩
  have hset : settle s p = ((settle s p).1, .waiting c next) := Prod.ext rfl hw
  obtain ⟨hc, hquit, hraise⟩ := hp.settle s _ hset
  rw [hw] at hpaused
  exact .stepping hc hquit hraise hpaused (hr.settle s _ hset) (.settle hg ho hw)
    (.settle hm hw)

theorem square_start (hu : Unstarted h) :
    Square kind s.ctx.rbdImages s.ctx.vmIps (Demoting 0) (tally h) (fun v _ => v = s.roster) s :=
  ⟨hu.demotes, ⟨rfl, rfl⟩, fun _ => rfl⟩

theorem watched_start (hu : Unstarted h) : Watched (· = {}) (wakes h) (fun _ _ => True) s :=
  ⟨hu.asleep, trivial, fun _ => trivial⟩

theorem reaches_afterPreflight (hu : Unstarted h) :
    Reaches kind cfg s h (settle s (afterPreflight kind cfg)) := by
  change Reaches kind cfg s h (settle s (if s.aborted then pure false else kind.steps cfg))
  split_ifs
  · exact reaches_ended rfl rfl _
  · refine reaches_of_raising (kind.raising_steps cfg) (kind.keeps_steps cfg)
      (kind.returns_steps cfg) (kind.enlists_steps cfg (square_start hu)) ?_
      (kind.watches_steps cfg (watched_start hu))
    rintro _ _ rfl
    exact ⟨rfl, rfl⟩

theorem checking_cons (image : String) (images : List String) :
    checking kind cfg (image :: images) =
      await (.preflightCheck cfg.pool image cfg.migrationMaxLagBytes) >>= fun answer =>
        verdict image answer >>= fun _ => checking kind cfg images := by
  simp only [checking, List.forM_eq_forM, List.forM_cons, bind_assoc]

theorem reaches_checking {images : List String}
    (hn : checks h + images.length = s.ctx.rbdImages.length) (hu : Unstarted h) :
    Reaches kind cfg s h (settle s (checking kind cfg images)) := by
  cases images with
  | nil => exact reaches_afterPreflight hu
  | cons image images =>
    have hset : settle s (checking kind cfg (image :: images)) =
        (s, .waiting (.preflightCheck cfg.pool image cfg.migrationMaxLagBytes) fun r =>
          ofExcept r >>= fun answer => verdict image answer >>= fun _ =>
            checking kind cfg images) := by
      rw [checking_cons, settle_perform_bind]
    rw [hset]
    refine ⟨rfl, rfl, ?_⟩
    rintro _ _ ⟨⟩
    exact .checking image images (by rw [List.length_cons] at hn; omega) hu

/-- Whatever the reply is, the run comes to its next place. -/
theorem Place.reply {next : Except PyException c.Reply → Engine Bool}
    (hp : Place kind cfg s h c next) (r : Except PyException c.Reply) :
    Reaches kind cfg s (h ++ [⟨c, r⟩]) (settle s (next r)) := by
  cases hp with
  | opening hn hu =>
    cases r with
    | error e => exact reaches_ended rfl rfl _
    | ok v =>
      change Reaches kind cfg s _ (settle s (await (.getVm s.ctx.vmId) >>= _))
      rw [settle_perform_bind]
      refine ⟨rfl, rfl, ?_⟩
      rintro _ _ ⟨⟩
      exact .fetching _ (by simpa [checks_snoc, Call.isCheck] using hn)
        (hu.congr (tally_snoc h _) (wakes_snoc h _))
  | fetching vmId hn hu =>
    cases r with
    | error e => exact reaches_ended rfl rfl _
    | ok vm =>
      change Reaches kind cfg s _ (settle (s.withVm vm) (if kind.admits vm.status then _ else _))
      by_cases hadm : kind.admits vm.status = true
      · rw [if_pos hadm]
        have hreach : Reaches kind cfg ((s.withVm vm).withImages vm) (h ++ [⟨.getVm vmId, .ok vm⟩])
            (settle ((s.withVm vm).withImages vm)
              (NovaFederation.checking kind cfg ((s.withVm vm).withImages vm).ctx.rbdImages)) := by
          apply reaches_checking
          · simp [checks_snoc, Call.isCheck, hn]
          · exact hu.congr (tally_snoc h _) (wakes_snoc h _)
        exact ⟨hreach.aborted, hreach.attempted, hreach.place⟩
      · rw [if_neg hadm]
        exact ⟨rfl, rfl, fun c next hw => by cases hw⟩
  | checking image images hn hu =>
    cases r with
    | error e => exact reaches_ended rfl rfl _
    | ok answer =>
      obtain ⟨ok, reason⟩ := answer
      cases ok with
      | false => exact reaches_ended rfl rfl _
      | true =>
        apply reaches_checking
        · simp only [checks_snoc, Call.isCheck, if_true]
          omega
        · exact hu.congr (tally_snoc h _) (wakes_snoc h _)
  | stepping hc hquit hraise hkeep hret hreg hmon =>
    rcases hret r with hret | ⟨-, b, hb⟩
    · have hg := hreg r s ⟨rfl, rfl⟩
      have hm := hmon r s
      rw [← tally_snoc h ⟨c, r⟩] at hg
      rw [← wakes_snoc] at hm
      exact reaches_of_raising (hraise r) (hkeep r) hret hg (fun v _ hv => ⟨hv.1, hv.2.1⟩) hm
    · rw [hb]
      exact reaches_ended rfl rfl _

theorem Place.forward {next : Except PyException c.Reply → Engine Bool}
    (hp : Place kind cfg s h c next) : c.isForward = true := by
  cases hp with
  | opening => rfl
  | fetching => rfl
  | checking => rfl
  | stepping hc => cases c <;> first | exact hc | cases hc

theorem Place.quits {next : Except PyException c.Reply → Engine Bool}
    (hp : Place kind cfg s h c next) {r : Except PyException c.Reply} (hr : Escaping kind c r) :
    ∃ s' e, settle s (next r) = (s', .done (.error e)) ∧ tallies s' = tallies s := by
  cases hp with
  | opening hn =>
    cases r with
    | error e => exact ⟨s, e, rfl, rfl⟩
    | ok v => simp [Escaping, escapes, Call.refused] at hr
  | fetching vmId hn =>
    cases r with
    | error e => exact ⟨s, e, rfl, rfl⟩
    | ok vm =>
      have hadm : kind.admits vm.status = false := by
        simpa [Escaping, escapes, Call.refused] using hr
      refine ⟨s.withVm vm, ⟨.migrationError, kind.refusal vmId vm⟩, ?_, rfl⟩
      change settle (s.withVm vm) (if kind.admits vm.status then _ else _) = _
      rw [hadm]
      rfl
  | checking image images hn =>
    cases r with
    | error e => exact ⟨s, e, rfl, rfl⟩
    | ok answer =>
      obtain ⟨ok, reason⟩ := answer
      have hok : ok = false := by simpa [Escaping, escapes, Call.refused] using hr
      subst hok
      exact ⟨s, _, rfl, rfl⟩
  | stepping hc hquit => exact hquit r hr s

/-- The reply is the last one that the preflight step asks for. -/
def completesPreflight (kind : MigrationType) (s : EngineState) (h : Trace) : CallEvent → Bool
  | ⟨.getVm _, .ok vm⟩ =>
    kind.admits vm.status && vm.volumeIds.isEmpty && s.ctx.rbdImages.isEmpty
  | ⟨.preflightCheck _ _ _, .ok answer⟩ =>
    answer.1 && checks h + 1 == s.ctx.rbdImages.length
  | _ => false

theorem settle_afterPreflight_aborted (ha : s.aborted = true) :
    settle s (afterPreflight kind cfg) = (s, .done (.ok false)) := by
  change settle s (if s.aborted then pure false else kind.steps cfg) = _
  rw [if_pos ha]
  rfl

/-- With the abort flag set, the run returns `False` when the preflight is complete. -/
theorem Place.completes {next : Except PyException c.Reply → Engine Bool}
    (hp : Place kind cfg s h c next) (ha : s.aborted = true) {r : Except PyException c.Reply}
    (hr : completesPreflight kind s h ⟨c, r⟩ = true) :
    ∃ s', settle s (next r) = (s', .done (.ok false)) ∧ tallies s' = tallies s := by
  cases hp with
  | opening hn => cases hr
  | fetching vmId hn =>
    cases r with
    | error e => cases hr
    | ok vm =>
      simp only [completesPreflight, Bool.and_eq_true, List.isEmpty_iff] at hr
      obtain ⟨⟨hadm, hvol⟩, himg⟩ := hr
      refine ⟨(s.withVm vm).withImages vm, ?_, rfl⟩
      change settle (s.withVm vm) (if kind.admits vm.status then _ else _) = _
      rw [if_pos hadm]
      change settle ((s.withVm vm).withImages vm)
        (NovaFederation.checking kind cfg ((s.withVm vm).withImages vm).ctx.rbdImages) = _
      have hnil : ((s.withVm vm).withImages vm).ctx.rbdImages = [] := by
        simp [EngineState.withImages, EngineState.withVm, hvol, himg]
      rw [hnil]
      exact settle_afterPreflight_aborted ha
  | checking image images hn =>
    cases r with
    | error e => cases hr
    | ok answer =>
      obtain ⟨ok, reason⟩ := answer
      simp only [completesPreflight, Bool.and_eq_true, beq_iff_eq] at hr
      obtain ⟨rfl, hlen⟩ := hr
      have hnil : images = [] := List.eq_nil_of_length_eq_zero (by omega)
      subst hnil
      exact ⟨s, settle_afterPreflight_aborted ha, rfl⟩
  | stepping hc =>
    cases c <;> first | cases hr | cases hc

theorem settle_checking_ne (images : List String) (s : EngineState) :
    (settle s (checking kind cfg images)).2 ≠ .done (.ok true) := by
  cases images with
  | nil =>
    change (settle s (if s.aborted then pure false else kind.steps cfg)).2 ≠ _
    split_ifs
    · exact nofun
    · exact (kind.returns_steps cfg).settle_ne s
  | cons image images =>
    rw [checking_cons, settle_perform_bind]
    exact nofun

/-- The run returns `True` only when a transaction has been committed. -/
theorem Place.returns {next : Except PyException c.Reply → Engine Bool}
    (hp : Place kind cfg s h c next) {r : Except PyException c.Reply}
    (hr : commits ⟨c, r⟩ = false) : (settle s (next r)).2 ≠ .done (.ok true) := by
  cases hp with
  | opening hn =>
    cases r with
    | error e => exact nofun
    | ok v => cases hr
  | fetching vmId hn =>
    cases r with
    | error e => exact nofun
    | ok vm =>
      change (settle (s.withVm vm) (if kind.admits vm.status then _ else _)).2 ≠ _
      by_cases hadm : kind.admits vm.status = true
      · rw [if_pos hadm]
        exact settle_checking_ne _ ((s.withVm vm).withImages vm)
      · rw [if_neg hadm]
        exact nofun
  | checking image images hn =>
    cases r with
    | error e => exact nofun
    | ok answer =>
      obtain ⟨ok, reason⟩ := answer
      cases ok with
      | false => exact nofun
      | true => exact settle_checking_ne images s
  | stepping hc hquit hraise hkeep hret =>
    rcases hret r with hret | ⟨hcm, -⟩
    · exact hret.settle_ne s
    · simp [Committed, hr] at hcm

theorem settle_checking_rollbacks (images : List String) (s : EngineState) :
    (settle s (checking kind cfg images)).1.rollbacks = s.rollbacks := by
  cases images with
  | nil =>
    change (settle s (if s.aborted then pure false else kind.steps cfg)).1.rollbacks = _
    split_ifs
    · rfl
    · have hstart := @square_start kind s [] ⟨⟨rfl, rfl⟩, rfl⟩
      exact congrArg Roster.rollbacks (kind.enlists_steps cfg hstart).settle.1
  | cons image images =>
    rw [checking_cons, settle_perform_bind]

/-- A reply that commits nothing makes the run register a handler when `arms` says so, and only
then. -/
theorem Place.rollbacks_eq_iff {next : Except PyException c.Reply → Engine Bool}
    (hp : Place kind cfg s h c next) {r : Except PyException c.Reply}
    (hr : commits ⟨c, r⟩ = false) :
    (settle s (next r)).1.rollbacks = s.rollbacks ↔
      arms kind s.ctx.rbdImages s.ctx.vmIps (tally h) ⟨c, r⟩ = false := by
  cases hp with
  | opening hn hu =>
    cases r with
    | error e => exact iff_of_true rfl (arms_error ..)
    | ok v => cases hr
  | fetching vmId hn hu =>
    cases r with
    | error e => exact iff_of_true rfl (arms_error ..)
    | ok vm =>
      refine iff_of_true ?_ rfl
      change (settle (s.withVm vm) (if kind.admits vm.status then _ else _)).1.rollbacks = _
      by_cases hadm : kind.admits vm.status = true
      · rw [if_pos hadm]
        exact settle_checking_rollbacks _ ((s.withVm vm).withImages vm)
      · rw [if_neg hadm]
        rfl
  | checking image images hn hu =>
    cases r with
    | error e => exact iff_of_true rfl (arms_error ..)
    | ok answer =>
      refine iff_of_true ?_ rfl
      obtain ⟨ok, reason⟩ := answer
      cases ok with
      | false => rfl
      | true => exact settle_checking_rollbacks images s
  | stepping hc hquit hraise hkeep hret hreg hmon => exact hreg.rollbacks_eq_iff hr

/-- After a reply to the monitor the run comes to wait for the migration thread when `monitorEnds`
says so, and only then. -/
theorem Place.awaits_iff {next : Except PyException c.Reply → Engine Bool}
    (hp : Place kind cfg s h c next) (r : Except PyException c.Reply) (hc : c.isMonitor = true) :
    awaitsMigrate (settle s (next r)).2.call = monitorEnds s.cancelled (wakes h) ⟨c, r⟩ := by
  cases hp with
  | opening hn hu => cases hc
  | fetching vmId hn hu => cases hc
  | checking image images hn hu => cases hc
  | stepping hs hquit hraise hkeep hret hreg hmon => exact hmon.awaits_iff r hc

def counts (h : Trace) : ℕ × Tally × Wakes := (checks h, tally h, wakes h)

/-- What another task does while the run waits, as long as it leaves the roster alone and makes
none of the calls that are counted. -/
theorem Place.transfer {next : Except PyException c.Reply → Engine Bool}
    (hp : Place kind cfg s h c next) (hl : t.roster = s.roster) (hc : counts k = counts h) :
    Place kind cfg t k c next := by
  have hi : t.ctx.rbdImages = s.ctx.rbdImages := congrArg Roster.images hl
  have hck : checks k = checks h := congrArg (·.1) hc
  have ht : tally k = tally h := congrArg (·.2.1) hc
  have hw : wakes k = wakes h := congrArg (·.2.2) hc
  cases hp with
  | opening hn hu => exact .opening (hck.trans hn) (hu.congr ht hw)
  | fetching vmId hn hu => exact .fetching vmId (hck.trans hn) (hu.congr ht hw)
  | checking image images hn hu =>
    exact .checking image images (by rw [hi, hck]; exact hn) (hu.congr ht hw)
  | stepping hs hquit hraise hkeep hret hreg hmon =>
    refine .stepping hs hquit hraise hkeep hret (hreg.transfer hl ht) ?_
    rw [Vigilant, hw]
    exact hmon

/-! ### Inside the handlers -/

/-- The task waits inside a handler, and the handlers `rest` are still to be called. -/
def Rolling (cfg : Settings) (rest : List Rollback) (c : Call)
    (next : Except PyException c.Reply → Engine Unit) : Prop :=
  ∃ handler : Except PyException c.Reply → Engine Unit,
    (next = fun r => tryCatch (handler r) (fun _ => pure ()) >>= fun _ =>
      rest.forM (attempt cfg)) ∧
    Handling c ∧ (∀ r, Calls Handling (handler r)) ∧ ∀ r, Keeps settled (handler r)

theorem Rolling.handling {rest : List Rollback} {next : Except PyException c.Reply → Engine Unit}
    (hr : Rolling cfg rest c next) : Handling c := by
  obtain ⟨handler, -, hc, -⟩ := hr
  exact hc

theorem Handling.not_commits (hc : Handling c) (r : Except PyException c.Reply) :
    commits ⟨c, r⟩ = false := by
  obtain ⟨hf, hne⟩ := hc
  cases c <;> first | exact absurd rfl (hne _) | rfl | cases hf

theorem Handling.counts_snoc (hc : Handling c) (h : Trace) (r : Except PyException c.Reply) :
    counts (h ++ [⟨c, r⟩]) = counts h := by
  obtain ⟨hf, -⟩ := hc
  rw [counts, checks_snoc, tally_snoc, wakes_snoc]
  cases c <;> first | rfl | cases hf

def frozen (s : EngineState) : EngineState := { s with cancelled := false, attempted := [] }

theorem frozen_congr (hs : settled t = settled s) : frozen t = frozen s :=
  congrArg (fun u : EngineState => { u with attempted := [] }) hs

theorem same_of_frozen (hs : frozen t = frozen s) :
    t.aborted = s.aborted ∧ t.rollbacks = s.rollbacks ∧ t.ctx = s.ctx := by
  have hab := congrArg EngineState.aborted hs
  have hrb := congrArg EngineState.rollbacks hs
  have hctx := congrArg EngineState.ctx hs
  exact ⟨hab, hrb, hctx⟩

theorem attempted_congr (hs : settled t = settled s) : t.attempted = s.attempted := by
  have hat := congrArg EngineState.attempted hs
  exact hat

/-- The task has called some of the handlers `rest`, each one once, and has come to an await of
a handler or to its end. -/
structure Rolled (cfg : Settings) (rest : List Rollback) (s : EngineState)
    (o : EngineState × Paused EngineState PyException Call Call.Reply Unit) : Prop where
  frozen : frozen o.1 = frozen s
  ended : ∀ r, o.2 = .done r → r = .ok () ∧ o.1.attempted = s.attempted ++ rest
  rolling : ∀ c next, o.2 = .waiting c next → o.1.attempted ≠ [] ∧
    ∃ left, Rolling cfg left c next ∧ o.1.attempted ++ left = s.attempted ++ rest

theorem rolled_handler {p : Engine Unit} {rest : List Rollback} (hne : s.attempted ≠ [])
    (hc : Calls Handling p) (hk : Keeps settled p)
    (hrest : ∀ t, Rolled cfg rest t (settle t (rest.forM (attempt cfg)))) :
    Rolled cfg rest s
      (settle s (tryCatch p (fun _ => pure ()) >>= fun _ => rest.forM (attempt cfg))) := by
  obtain ⟨hs, hpaused⟩ := (hk s).settle
  rw [settle_bind, settle_tryCatch]
  rcases hset : settle s p with ⟨t, r | ⟨c, next⟩⟩
  · rw [hset] at hs
    have hat : t.attempted = s.attempted := attempted_congr hs
    have ht := hrest t
    have hgo : Rolled cfg rest s (settle t (rest.forM (attempt cfg))) := by
      refine ⟨ht.frozen.trans (frozen_congr hs), fun r hr => ?_, fun c next hw => ?_⟩
      · rw [← hat]
        exact ht.ended r hr
      · rw [← hat]
        exact ht.rolling c next hw
    cases r with
    | ok v => exact hgo
    | error e => exact hgo
  · rw [hset] at hs hpaused
    have hat : t.attempted = s.attempted := attempted_congr hs
    obtain ⟨hcall, hcalls⟩ := hc.settle s t hset
    refine ⟨frozen_congr hs, by simp, ?_⟩
    rintro _ _ ⟨⟩
    refine ⟨?_, rest, ⟨next, rfl, hcall, hcalls, hpaused⟩, ?_⟩
    · rw [hat]
      exact hne
    · rw [hat]

theorem rolled_forM (rest : List Rollback) (s : EngineState) :
    Rolled cfg rest s (settle s (rest.forM (attempt cfg))) := by
  induction rest generalizing s with
  | nil =>
    refine ⟨rfl, ?_, fun c next hw => by cases hw⟩
    rintro _ ⟨⟩
    exact ⟨rfl, (List.append_nil _).symm⟩
  | cons rb rest ih =>
    have hne : s.attempted ++ [rb] ≠ [] := by simp
    have hr := rolled_handler (s := { s with attempted := s.attempted ++ [rb] })
      (p := invoke cfg rb) hne (handling_invoke rb) (keeps_invoke rb) ih
    refine ⟨hr.frozen, fun r hd => ?_, fun c next hw => ?_⟩
    · rw [List.append_cons]
      exact hr.ended r hd
    · rw [List.append_cons]
      exact hr.rolling c next hw

theorem Rolling.reply {rest : List Rollback} {next : Except PyException c.Reply → Engine Unit}
    (hr : Rolling cfg rest c next) (hne : s.attempted ≠ []) (r : Except PyException c.Reply) :
    Rolled cfg rest s (settle s (next r)) := by
  obtain ⟨handler, rfl, -, hc, hk⟩ := hr
  exact rolled_handler hne (hc r) (hk r) (rolled_forM rest)

end NovaFederation
