import NovaFederation.Progress
import NovaFederation.Redelivery
import NovaFederation.StorageSafety

/-!
# What the row tells of a worker that has died

Nothing takes up a run where a dead worker has left it, and all that is left to go by is the row of
the migration. Each step writes its state and its percentage before it makes its first call, and no
step is entered before the one before it is complete. So the row says which calls may have been made
and which have returned, wherever the run was cut off. A failure overwrites the state, but the
percentage stays and belongs to one step only.
-/

namespace NovaFederation
open History Coroutine MigrationEngine
variable {kind : MigrationType} {cfg : Settings} {ctx : MigrationContext} {p : Plan}
  {st st' : MigrationState} {s : EngineState} {h pre : Trace} {e : CallEvent} {image : String}

/-- The place of a state on the path of the engine; what is not on it comes after all that is. -/
def MigrationType.rank (kind : MigrationType) (st : MigrationState) : ℕ :=
  (documentedPath kind).idxOf st

def MigrationType.transfers : MigrationType → MigrationState
  | .cold => .disk
  | .live => .cutover

def Behind (kind : MigrationType) (step st : MigrationState) : Prop :=
  st ∈ documentedPath kind ∧ kind.rank step < kind.rank st

instance (step : MigrationState) : Decidable (Behind kind step st) :=
  inferInstanceAs (Decidable (_ ∧ _))

/-- What has returned by the time that the row is at `st`. -/
structure Milestones (kind : MigrationType) (cfg : Settings) (p : Plan) (st : MigrationState)
    (h : Trace) : Prop where
  migrated : kind = .live → Behind kind .memory st → Has Migrated h
  promoted : Behind kind kind.transfers st → ∀ i ∈ p.images, Has (Promoted cfg i) h
  created : kind = .cold → Behind kind .cutover st → ∀ i ∈ p.images, Has (VolumeCreated cfg i) h
  announced : Behind kind .bgp st → ∀ pfx ∈ p.prefixes, Has (Announced pfx) h
  deleted : Behind kind .cleanup st → Has DeleteIssued h

theorem Milestones.extend {h' : Trace} (hm : Milestones kind cfg p st h) (hh : h <+: h') :
    Milestones kind cfg p st h' where
  migrated := fun hk hb => (hm.migrated hk hb).extend hh
  promoted := fun hb i hi => (hm.promoted hb i hi).extend hh
  created := fun hk hb i hi => (hm.created hk hb i hi).extend hh
  announced := fun hb pfx hpfx => (hm.announced hb pfx hpfx).extend hh
  deleted := fun hb => (hm.deleted hb).extend hh

/-- The last step that the row was set to, by a transaction that was committed. -/
def enter (st : MigrationState) : CallEvent → MigrationState
  | ⟨.transition _ state _, .ok _⟩ => state
  | _ => st

def lastEntered (h : Trace) : MigrationState := replay enter .pending h

theorem lastEntered_snoc (h : Trace) (e : CallEvent) :
    lastEntered (h ++ [e]) = enter (lastEntered h) e := by
  rw [lastEntered, replay_append]
  rfl

theorem enter_within (he : Within st e.call) : enter st e = st := by
  obtain ⟨c, r⟩ := e
  cases c <;> cases r <;> simp_all [Within, Call.within, enter]

def Call.isTransition : Call → Bool
  | .transition _ _ _ => true
  | _ => false

/-- A step is recorded after the steps before it are complete, and its calls come after the
record. -/
def Recorded (kind : MigrationType) (cfg : Settings) (p : Plan) (pre : Trace) : Call → Prop
  | .transition _ st _ => st ∈ documentedPath kind ∧ kind.rank (lastEntered pre) ≤ kind.rank st ∧
      Milestones kind cfg p st pre
  | c => c.isForward = true → Within (lastEntered pre) c

theorem recorded_call {c : Call} (hc : c.isTransition = false) :
    Recorded kind cfg p pre c ↔ (c.isForward = true → Within (lastEntered pre) c) := by
  cases c <;> first | exact Iff.rfl | cases hc

/-! ### One step -/

structure Due (kind : MigrationType) (cfg : Settings) (p : Plan) (st : MigrationState)
    (h : Trace) : Prop where
  path : st ∈ documentedPath kind
  rank : kind.rank (lastEntered h) ≤ kind.rank st
  milestones : Milestones kind cfg p st h

theorem wp_record {progress : ℚ} (hr : Respects (Recorded kind cfg p) h)
    (hd : Due kind cfg p st h) :
    wp (transition .run st progress)
      (fun _ _ h' => h <+: h' ∧ Respects (Recorded kind cfg p) h' ∧ lastEntered h' = st)
      (fun _ _ h' => Respects (Recorded kind cfg p) h') s h := by
  have hlaw : ∀ r, Respects (Recorded kind cfg p) (h ++ [⟨.transition .run st progress, r⟩]) :=
    fun r => respects_snoc.2 ⟨hr, hd.path, hd.rank, hd.milestones⟩
  rw [transition, wp_bind, wp_modify, wp_perform]
  exact ⟨fun _ => ⟨List.prefix_append _ _, hlaw _, lastEntered_snoc _ _⟩, fun _ => hlaw _⟩

theorem wp_recorded {step : Engine Unit} (hstep : IsStep st step)
    (hr : Respects (Recorded kind cfg p) h) (hd : Due kind cfg p st h) :
    wp step (fun _ _ h' => Respects (Recorded kind cfg p) h' ∧ lastEntered h' = st)
      (fun _ _ h' => Respects (Recorded kind cfg p) h') s h := by
  obtain ⟨progress, rest, rfl⟩ := hstep.begins
  have hrest : Calls (Within st) rest := (hstep.calls s).2 (.ok ())
  apply wp_seq (wp_record hr hd)
  intro _ s' h' hq
  let I : Trace → Prop := fun h' =>
    h <+: h' ∧ Respects (Recorded kind cfg p) h' ∧ lastEntered h' = st
  have hI : ∀ h' e, Within st e.call → I h' → I (h' ++ [e]) := by
    rintro h' e he ⟨hh, hr', hrow⟩
    refine ⟨prefix_snoc hh e, respects_snoc.2 ⟨hr', ?_⟩, ?_⟩
    · obtain ⟨c, r⟩ := e
      cases hc : c.isTransition with
      | false =>
        rw [recorded_call hc, hrow]
        exact fun _ => he
      | true =>
        -- within a step only the state of the step is written again
        cases c with
        | transition task state progress =>
          obtain rfl : state = st := (of_decide_eq_true he).1
          exact ⟨hd.path, hrow ▸ Nat.le_refl _, hd.milestones.extend hh⟩
        | _ => cases hc
    · rw [lastEntered_snoc, hrow, enter_within he]
  apply wp_mono (wp_calls hrest I hI hq)
  · exact fun _ _ _ hq => hq.2
  · exact fun _ _ _ hq => hq.2.1

/-- What is asked of the rest of a body once the preflight step has fixed the plan. -/
def Journalled (kind : MigrationType) (cfg : Settings) (p : Plan) (s : EngineState) (h : Trace) :
    Prop :=
  s.ctx.plan = p ∧ Respects (Recorded kind cfg p) h

theorem wp_entered {step : Engine Unit} {G : EngineState → Trace → Prop}
    (hwp : wp step (fun _ => G) (stopped kind cfg p) s h) (hstep : IsStep st step)
    (hr : Respects (Recorded kind cfg p) h) (hd : Due kind cfg p st h) :
    wp step (fun _ s' h' => G s' h' ∧ Respects (Recorded kind cfg p) h' ∧ lastEntered h' = st)
      (fun _ => Journalled kind cfg p) s h := by
  apply wp_mono (wp_and hwp (wp_recorded hstep hr hd))
  · exact fun _ _ _ hq => hq
  · exact fun _ _ _ hq => ⟨hq.1.plan, hq.2⟩

/-! ### Both bodies -/

def early : MigrationType → List MigrationState
  | .cold => [.preflight, .disk]
  | .live => [.preflight, .disk, .memory]

theorem milestones_early (hst : st ∈ early kind) : Milestones kind cfg p st h := by
  have hno : ¬ (kind = .live ∧ Behind kind .memory st) ∧ ¬ Behind kind kind.transfers st ∧
      ¬ Behind kind .cutover st ∧ ¬ Behind kind .bgp st ∧ ¬ Behind kind .cleanup st := by
    revert st
    cases kind <;> decide
  obtain ⟨hmem, htr, hcut, hbgp, hcl⟩ := hno
  exact ⟨fun hk hb => absurd ⟨hk, hb⟩ hmem, fun hb => absurd hb htr, fun _ hb => absurd hb hcut,
    fun hb => absurd hb hbgp, fun hb => absurd hb hcl⟩

theorem wp_ending_recorded {progress : ℚ} (hg : Going kind cfg p s h) (ha : Armed s)
    (hrel : Relocated kind cfg p h) (hr : Respects (Recorded kind cfg p) h)
    (hrow : lastEntered h = .bgp) :
    wp (do
        cleanup progress
        transition .run .done 100
        pure true)
      (fun _ => Journalled kind cfg p) (fun _ => Journalled kind cfg p) s h := by
  have hdue : Due kind cfg p .cleanup h := by
    refine ⟨?_, ?_, fun hk _ => hrel.migrated hk, fun _ => hrel.promoted,
      fun hk _ => hrel.created hk, fun _ => hrel.announced, fun hb => absurd hb ?_⟩
    · cases kind <;> decide
    · rw [hrow]
      cases kind <;> decide
    · cases kind <;> decide
  apply wp_seq (wp_entered (wp_cleanup hg ha hrel) (isStep_cleanup progress) hr hdue)
  rintro _ s₁ h₁ ⟨⟨hd₁, hr₁, hh₁⟩, hj₁, hrow₁⟩
  have hrel₁ := hrel.extend hh₁
  have hdone : Due kind cfg p .done h₁ := by
    refine ⟨List.mem_append_right _ (List.mem_singleton_self _), ?_,
      fun hk _ => hrel₁.migrated hk, fun _ => hrel₁.promoted, fun hk _ => hrel₁.created hk,
      fun _ => hrel₁.announced, fun _ => hd₁.issued⟩
    rw [hrow₁]
    cases kind <;> decide
  apply wp_seq (wp_mono (wp_and (wp_done hd₁ hrel₁.preflight (ha.congr hr₁))
    (wp_record hj₁ hdone)) (fun _ _ _ hq => hq) fun _ _ _ hq => ⟨hq.1.plan, hq.2⟩)
  exact fun _ _ _ hq => ⟨hq.1.1.plan, hq.2.2.1⟩

theorem ColdMigrationEngine.wp_steps_recorded (hg : Going .cold cfg p s h)
    (hp : PreflightPassed cfg p h) (hu : Untouched s h) (hr : Respects (Recorded .cold cfg p) h)
    (hrow : lastEntered h = .preflight) :
    wp (steps cfg) (fun _ => Journalled .cold cfg p) (fun _ => Journalled .cold cfg p) s h := by
  rw [steps]
  have hdisk : Due .cold cfg p .disk h :=
    ⟨by decide, hrow ▸ by decide, milestones_early (by decide)⟩
  apply wp_seq (wp_entered (wp_stepDisk hg hp hu) isStep_stepDisk hr hdisk)
  rintro _ s₂ h₂ ⟨⟨hg₂, ha₂, hh₂, hpr₂⟩, hr₂, hrow₂⟩
  have hp₂ := hp.extend hh₂
  have hcut : Due .cold cfg p .cutover h₂ := by
    refine ⟨by decide, hrow₂ ▸ by decide, fun hk => absurd hk (by decide), fun _ => hpr₂,
      ?_, ?_, ?_⟩
    · exact fun _ hb => absurd hb (by decide)
    · exact fun hb => absurd hb (by decide)
    · exact fun hb => absurd hb (by decide)
  apply wp_seq (wp_entered (wp_stepCutover hg₂ hp₂ ha₂ hpr₂) isStep_stepCutover hr₂ hcut)
  rintro _ s₃ h₃ ⟨⟨hg₃, ha₃, hh₃, hcr₃⟩, hr₃, hrow₃⟩
  have hp₃ := hp₂.extend hh₃
  have hpr₃ : ∀ i ∈ p.images, Has (Promoted cfg i) h₃ := fun i hi => (hpr₂ i hi).extend hh₃
  have hbgp : Due .cold cfg p .bgp h₃ := by
    refine ⟨by decide, hrow₃ ▸ by decide, fun hk => absurd hk (by decide), fun _ => hpr₃,
      fun _ _ => hcr₃, ?_, ?_⟩
    · exact fun hb => absurd hb (by decide)
    · exact fun hb => absurd hb (by decide)
  apply wp_seq (wp_entered (wp_stepBgp hg₃ hp₃ ha₃ hpr₃) isStep_stepBgp hr₃ hbgp)
  rintro _ s₄ h₄ ⟨⟨hg₄, ha₄, hh₄, han₄⟩, hr₄, hrow₄⟩
  have hrel : Relocated .cold cfg p h₄ :=
    ⟨hp₃.extend hh₄, fun i hi => (hpr₃ i hi).extend hh₄,
      fun _ i hi => (hcr₃ i hi).extend hh₄, han₄, by simp⟩
  exact wp_ending_recorded hg₄ ha₄ hrel hr₄ hrow₄

theorem LiveMigrationEngine.wp_steps_recorded (hg : Going .live cfg p s h)
    (hp : PreflightPassed cfg p h) (hu : Untouched s h) (hr : Respects (Recorded .live cfg p) h)
    (hrow : lastEntered h = .preflight) :
    wp (steps cfg) (fun _ => Journalled .live cfg p) (fun _ => Journalled .live cfg p) s h := by
  rw [steps]
  have hdisk : Due .live cfg p .disk h :=
    ⟨by decide, hrow ▸ by decide, milestones_early (by decide)⟩
  apply wp_seq (wp_entered (wp_stepDiskSync hg hp hu) isStep_stepDiskSync hr hdisk)
  rintro _ s₂ h₂ ⟨⟨hg₂, hu₂, hh₂⟩, hr₂, hrow₂⟩
  have hp₂ := hp.extend hh₂
  have hmemory : Due .live cfg p .memory h₂ :=
    ⟨by decide, hrow₂ ▸ by decide, milestones_early (by decide)⟩
  apply wp_seq (wp_entered (wp_stepMemory hg₂ hp₂ hu₂) isStep_stepMemory hr₂ hmemory)
  rintro _ s₃ h₃ ⟨⟨hg₃, hu₃, hh₃, hm₃⟩, hr₃, hrow₃⟩
  have hp₃ := hp₂.extend hh₃
  have hcut : Due .live cfg p .cutover h₃ := by
    refine ⟨by decide, hrow₃ ▸ by decide, fun _ _ => hm₃, ?_,
      fun hk => absurd hk (by decide), ?_, ?_⟩
    · exact fun hb => absurd hb (by decide)
    · exact fun hb => absurd hb (by decide)
    · exact fun hb => absurd hb (by decide)
  apply wp_seq (wp_entered (wp_stepCutover hg₃ hp₃ hu₃ hm₃) isStep_stepCutover hr₃ hcut)
  rintro _ s₄ h₄ ⟨⟨hg₄, ha₄, hh₄, hpr₄⟩, hr₄, hrow₄⟩
  have hp₄ := hp₃.extend hh₄
  have hm₄ := hm₃.extend hh₄
  have hbgp : Due .live cfg p .bgp h₄ := by
    refine ⟨by decide, hrow₄ ▸ by decide, fun _ _ => hm₄, fun _ => hpr₄,
      fun hk => absurd hk (by decide), ?_, ?_⟩
    · exact fun hb => absurd hb (by decide)
    · exact fun hb => absurd hb (by decide)
  apply wp_seq (wp_entered (wp_stepBgp hg₄ hp₄ ha₄ hpr₄) isStep_stepBgp hr₄ hbgp)
  rintro _ s₅ h₅ ⟨⟨hg₅, ha₅, hh₅, han₅⟩, hr₅, hrow₅⟩
  have hrel : Relocated .live cfg p h₅ :=
    ⟨hp₄.extend hh₅, fun i hi => (hpr₄ i hi).extend hh₅, by simp, han₅, fun _ => hm₄.extend hh₅⟩
  exact wp_ending_recorded hg₅ ha₅ hrel hr₅ hrow₅

theorem recorded_of_steps {refusal : String → VMDetails → String} {steps : Engine Bool}
    (hsteps : ∀ p s h, Going kind cfg p s h → PreflightPassed cfg p h → Untouched s h →
      Respects (Recorded kind cfg p) h → lastEntered h = .preflight →
      wp steps (fun _ => Journalled kind cfg p) (fun _ => Journalled kind cfg p) s h) :
    wp (do
        preflight cfg kind.admits refusal
        let s ← Coroutine.read
        if s.aborted then pure false else steps)
      (fun _ s h => Respects (Recorded kind cfg s.ctx.plan) h)
      (fun _ s h => Respects (Recorded kind cfg s.ctx.plan) h) (EngineState.init ctx) [] := by
  have hdue : ∀ p, Due kind cfg p .preflight [] := by
    intro p
    refine ⟨?_, ?_, milestones_early ?_⟩
    · cases kind <;> decide
    · cases kind <;> decide
    · cases kind <;> decide
  have hstep : IsStep .preflight (preflight cfg kind.admits refusal) := isStep_preflight _ _
  have hrec := wp_forall fun p => wp_recorded (s := EngineState.init ctx) hstep (respects_nil _)
    (hdue p)
  apply wp_seq (wp_mono (wp_and (wp_preflight rfl rfl rfl) hrec) (fun _ _ _ hq => hq)
    fun _ s _ hq => hq.2 s.ctx.plan)
  rintro _ s h ⟨⟨hg, hp, hu⟩, hr⟩
  have hr := hr s.ctx.plan
  generalize s.ctx.plan = p at hg hp hr
  rw [wp_bind, wp_read, wp_ite]
  refine ⟨fun hab => by simp [hg.aborted] at hab, fun _ => ?_⟩
  apply wp_mono (hsteps p s h hg hp hu hr.1 hr.2)
  · rintro _ _ _ ⟨rfl, hj⟩
    exact hj
  · rintro _ _ _ ⟨rfl, hj⟩
    exact hj

theorem recorded_body (kind : MigrationType) (cfg : Settings) (ctx : MigrationContext) :
    wp (kind.body cfg) (fun _ s h => Respects (Recorded kind cfg s.ctx.plan) h)
      (fun _ s h => Respects (Recorded kind cfg s.ctx.plan) h) (EngineState.init ctx) [] := by
  cases kind with
  | cold =>
    apply @recorded_of_steps .cold cfg ctx _ (ColdMigrationEngine.steps cfg)
    exact fun _ _ _ => ColdMigrationEngine.wp_steps_recorded
  | live =>
    apply @recorded_of_steps .live cfg ctx _ (LiveMigrationEngine.steps cfg)
    exact fun _ _ _ => LiveMigrationEngine.wp_steps_recorded

theorem recorded_run (kind : MigrationType) (cfg : Settings) (ctx : MigrationContext) (O : World) :
    Respects (Recorded kind cfg (kind.migrate cfg ctx O).state.ctx.plan)
      (kind.migrate cfg ctx O).trace := by
  refine migrate_of_body kind (fun p h => Respects (Recorded kind cfg p) h)
    (recorded_body kind cfg ctx) (fun p h e he hr => respects_snoc.2 ⟨hr, ?_⟩) O
  have hc : e.call.isTransition = false := by
    obtain ⟨c, r⟩ := e
    cases c <;> first | rfl | cases he
  rw [recorded_call hc, he]
  exact nofun

/-! ### Percentages -/

/-- The percentages at which the engine enters its steps. -/
def MigrationType.entries : MigrationType → List (ℚ × MigrationState)
  | .cold => [(5, .preflight), (20, .disk), (70, .cutover), (85, .bgp), (95, .cleanup),
      (100, .done)]
  | .live => [(5, .preflight), (15, .disk), (25, .memory), (80, .cutover), (90, .bgp),
      (96, .cleanup), (100, .done)]

/-- The last step that is entered at a percentage up to the given one. -/
def MigrationType.stepAt (kind : MigrationType) (progress : ℚ) : MigrationState :=
  ((kind.entries.filter (·.1 ≤ progress)).getLast?.map Prod.snd).getD .pending

def Call.Paced (kind : MigrationType) : Call → Prop
  | .transition _ st progress => kind.stepAt progress = st
  | _ => True

theorem paced_of_not_progress {c : Call} (hc : c.isProgress = false) : c.Paced kind := by
  cases c <;> trivial

theorem paced_transition {task : Task} {progress : ℚ} (hst : kind.stepAt progress = st) :
    Calls (Call.Paced kind) (transition task st progress) :=
  .bind (.modify _ _) fun _ => .perform hst

/-- The memory step of the live engine goes from 25% to 75%. -/
theorem stepAt_memory {progress : ℚ} (hlow : 25 ≤ progress) (hhigh : progress ≤ 75) :
    MigrationType.live.stepAt progress = .memory := by
  have hpast : (5 : ℚ) ≤ progress ∧ 15 ≤ progress :=
    ⟨by linarith, by linarith⟩
  have hahead : ¬ (80 : ℚ) ≤ progress ∧ ¬ 90 ≤ progress ∧ ¬ 96 ≤ progress ∧ ¬ 100 ≤ progress :=
    ⟨by linarith, by linarith, by linarith, by linarith⟩
  simp [MigrationType.stepAt, MigrationType.entries, hpast, hlow, hahead]

theorem Enters.paced {step : Engine Unit} {progress : ℚ} (hstep : Enters progress step)
    (his : IsStep st step) (hst : kind.stepAt progress = st) : Calls (Call.Paced kind) step := by
  obtain ⟨st', rest, rfl, hrest⟩ := hstep
  obtain rfl : st' = st := (of_decide_eq_true (his.calls (EngineState.init (connected kind))).1).1
  exact .bind (paced_transition hst) fun _ => hrest.mono fun _ => paced_of_not_progress

namespace ColdMigrationEngine

theorem paced_stepDisk : Calls (Call.Paced .cold) (stepDisk cfg) := by
  refine .bind (paced_transition (by decide +kernel)) fun _ => .bind (.read _) fun _ =>
    .bind (.ite (.perform trivial) (.pure _ _)) fun _ => ?_
  refine .bind (.forM fun _ _ => .bind (.perform trivial) fun _ => .pure _ _) fun _ =>
    .bind (.forM fun _ _ => .perform trivial) fun _ => .bind (.modify _ _) fun _ =>
    .bind (.bind (.read _) fun _ => .forM fun _ _ => .ite ?_ (.perform trivial)) fun _ =>
    paced_transition (by decide +kernel)
  exact .bind (.perform trivial) fun _ => .pure _ _

theorem enters_stepCutover : Enters 70 (stepCutover cfg) := by
  refine ⟨_, _, rfl, .bind (.read _) fun s => ?_⟩
  cases s.ctx.vm with
  | none => exact .pure _ _
  | some vm =>
    refine .forM fun image _ => .bind ?_ fun _ => .bind (.perform rfl) fun _ => .pure _ _
    unfold lookupVolume
    split
    · exact .tryCatch (.bind (.perform rfl) fun _ => .pure _ _) fun _ => .pure _ _
    · exact .pure _ _

theorem enters_stepBgp : Enters 85 stepBgp :=
  ⟨_, _, rfl, .bind (.read _) fun _ => .ite (.pure _ _)
    (.bind (steady_handoff _ _ _) fun _ => .modify _ _)⟩

theorem paced_body (cfg : Settings) : Calls (Call.Paced .cold) (body cfg) := by
  refine .bind ((enters_preflight _ _).paced (isStep_preflight _ _) (by decide +kernel)) fun _ =>
    .bind (.read _) fun _ => .ite (.pure _ _) ?_
  refine .bind paced_stepDisk fun _ => .bind (enters_stepCutover.paced isStep_stepCutover
    (by decide +kernel)) fun _ => .bind (enters_stepBgp.paced isStep_stepBgp (by decide +kernel))
    fun _ => .bind ((enters_cleanup 95).paced (isStep_cleanup 95) (by decide +kernel)) fun _ =>
    .bind (paced_transition (by decide +kernel)) fun _ => .pure _ _

end ColdMigrationEngine

namespace LiveMigrationEngine

theorem paced_poll (sourceHost vmId : String) :
    Calls (Call.Paced .live) (do
      let pct ← QEMUMigrationTunnel.getProgressPct sourceHost vmId
      progressCb .monitor pct) := by
  have hcb : ∀ answer, Calls (Call.Paced .live) (progressCb .monitor (percent answer)) := by
    intro answer
    have hlow := percent_nonneg answer
    have hhigh := percent_le answer
    exact paced_transition (stepAt_memory (by linarith) (by linarith))
  refine ⟨trivial, ?_⟩
  rintro (x | _ | info)
  · exact hcb (.error x)
  · exact hcb (.ok none)
  · change Calls _ (((if 0 < info.total then pure _ else pure 0 : Engine ℚ).handle _).bind _)
    have hpct := hcb (.ok (some info))
    unfold percent counters at hpct
    dsimp only at hpct
    split_ifs at hpct ⊢ with htotal
    · exact hpct
    · exact hpct

theorem paced_monitorProgress (sourceHost vmId : String) (polls : ℕ) :
    Calls (Call.Paced .live) (QEMUMigrationTunnel.monitorProgress sourceHost vmId
      (progressCb .monitor) polls) := by
  induction polls with
  | zero => exact .pure _ _
  | succ polls ih =>
    exact .bind (.read _) fun _ => .ite (.pure _ _)
      (.bind (.tryCatch (paced_poll sourceHost vmId) fun _ => .pure _ _) fun _ => ih)

theorem paced_stepMemory : Calls (Call.Paced .live) stepMemory := by
  refine .bind (paced_transition (by decide +kernel)) fun _ => .bind (.read _) fun s => ?_
  cases s.ctx.vm with
  | none => exact .pure _ _
  | some vm =>
    dsimp only
    split
    · exact .throw _ _
    · exact .throw _ _
    · refine .bind (.modify _ _) fun _ => .bind (.tryCatch (.perform trivial) fun _ => .pure _ _)
        fun _ => .bind (paced_monitorProgress _ _ _) fun _ => .bind (.perform trivial) fun job => ?_
      cases job.raised with
      | none => exact paced_transition (by decide +kernel)
      | some e => exact .throw _ _

theorem paced_body (cfg : Settings) : Calls (Call.Paced .live) (body cfg) := by
  refine .bind ((enters_preflight _ _).paced (isStep_preflight _ _) (by decide +kernel)) fun _ =>
    .bind (.read _) fun _ => .ite (.pure _ _) ?_
  refine .bind (enters_stepDiskSync.paced isStep_stepDiskSync (by decide +kernel)) fun _ =>
    .bind paced_stepMemory fun _ => .bind (enters_stepCutover.paced isStep_stepCutover
    (by decide +kernel)) fun _ => .bind (enters_stepBgp.paced isStep_stepBgp (by decide +kernel))
    fun _ => .bind ((enters_cleanup 96).paced (isStep_cleanup 96) (by decide +kernel)) fun _ =>
    .bind (paced_transition (by decide +kernel)) fun _ => .pure _ _

end LiveMigrationEngine

theorem paced_migrate (kind : MigrationType) (cfg : Settings) (ctx : MigrationContext)
    (O : World) : ∀ e ∈ (kind.migrate cfg ctx O).trace, e.call.Paced kind := by
  refine migrate_of_body kind (fun _ h => ∀ e ∈ h, e.call.Paced kind) ?_ ?_ O
  · have hbody : Calls (Call.Paced kind) (kind.body cfg) := by
      cases kind with
      | cold => exact ColdMigrationEngine.paced_body cfg
      | live => exact LiveMigrationEngine.paced_body cfg
    apply wp_calls hbody (fun h => ∀ e ∈ h, e.call.Paced kind) ?_ (by simp)
    intro h e he hall
    exact List.forall_mem_append.2 ⟨hall, List.forall_mem_singleton.2 he⟩
  · intro _ h e he hall
    refine List.forall_mem_append.2 ⟨hall, List.forall_mem_singleton.2 ?_⟩
    generalize e.call = c at he
    cases c <;> trivial

/-- The percentage of the row tells the last step, also when the row is `failed`. -/
theorem stepAt_record (hp : ∀ e ∈ h, e.call.Paced kind) :
    kind.stepAt (record h).progress = lastEntered h := by
  induction h using List.reverseRecOn with
  | nil => cases kind <;> decide +kernel
  | append_singleton h e ih =>
    obtain ⟨hh, he⟩ := List.forall_mem_append.1 hp
    have hsame := ih hh
    have hpaced : e.call.Paced kind := he e (List.mem_singleton_self e)
    rw [record_snoc, lastEntered_snoc]
    obtain ⟨c, r⟩ := e
    cases c with
    | transition task st progress =>
      cases r with
      | ok _ => exact hpaced
      | error _ => exact hsame
    | fail error =>
      cases r with
      | ok _ => exact hsame
      | error _ => exact hsame
    | _ => exact hsame

/-! ### Reading the row -/

theorem rank_snoc (hl : Recorded kind cfg p h e.call) :
    kind.rank (lastEntered h) ≤ kind.rank (lastEntered (h ++ [e])) := by
  rw [lastEntered_snoc]
  unfold enter
  split
  · exact hl.2.1
  · exact Nat.le_refl _

def Reached (kind : MigrationType) (st : MigrationState) (h : Trace) : Prop :=
  ∀ e ∈ h, e.call.isForward = true → e.call.isTransition = false →
    ∃ st', Within st' e.call ∧ kind.rank st' ≤ kind.rank st

theorem reached_of_recorded (hr : Respects (Recorded kind cfg p) h) :
    Reached kind (lastEntered h) h := by
  induction h using List.reverseRecOn with
  | nil => exact fun e he => absurd he List.not_mem_nil
  | append_singleton h e ih =>
    obtain ⟨hr, hl⟩ := respects_snoc.1 hr
    have hrank := rank_snoc hl
    intro a ha hf ht
    rcases List.mem_append.1 ha with ha | ha
    · obtain ⟨st, hst, hle⟩ := ih hr a ha hf ht
      exact ⟨st, hst, Nat.le_trans hle hrank⟩
    · obtain rfl := List.mem_singleton.1 ha
      exact ⟨lastEntered h, (recorded_call ht).1 hl hf, hrank⟩

theorem milestones_of_recorded (hr : Respects (Recorded kind cfg p) h) :
    Milestones kind cfg p (lastEntered h) h := by
  induction h using List.reverseRecOn with
  | nil =>
    have hout : ∀ step, ¬ Behind kind step .pending := by
      intro step
      cases kind <;> cases step <;> decide
    exact ⟨fun _ hb => absurd hb (hout _), fun hb => absurd hb (hout _),
      fun _ hb => absurd hb (hout _), fun hb => absurd hb (hout _), fun hb => absurd hb (hout _)⟩
  | append_singleton h e ih =>
    obtain ⟨hr, hl⟩ := respects_snoc.1 hr
    rw [lastEntered_snoc]
    unfold enter
    split
    · exact hl.2.2.extend (List.prefix_append _ _)
    · exact (ih hr).extend (List.prefix_append _ _)

theorem record_of_law (hl : Respects (Law kind cfg p) h) :
    Has FailRecorded h ∧ rowState h = .failed ∨
      ¬ Has FailRecorded h ∧ rowState h = lastEntered h := by
  induction h using List.reverseRecOn with
  | nil => exact .inr ⟨not_has_nil _, rfl⟩
  | append_singleton h e ih =>
    obtain ⟨hl₀, hle⟩ := respects_snoc.1 hl
    have hsame := ih hl₀
    rw [has_snoc, rowState_snoc, lastEntered_snoc]
    by_cases hf : FailRecorded e
    · obtain ⟨error, rfl⟩ := hf
      exact .inl ⟨.inr ⟨error, rfl⟩, rfl⟩
    · rw [or_iff_left hf]
      obtain ⟨c, r⟩ := e
      cases c with
      | transition task st progress =>
        have hclean := ((law_forward rfl).1 hle).1
        cases r with
        | ok _ =>
          refine .inr ⟨?_, rfl⟩
          rintro ⟨_, he, error, rfl⟩
          have hforward := (hclean _ he).1
          cases hforward
        | error x => exact hsame
      | fail error =>
        cases r with
        | ok _ => exact absurd ⟨error, rfl⟩ hf
        | error x => exact hsame
      | _ => exact hsame

theorem memory_of_migrated (hr : Reached .live st h) (hm : Has Migrated h) :
    MigrationType.live.rank .memory ≤ MigrationType.live.rank st := by
  obtain ⟨e, he, _, _, _, _, rfl, -⟩ := hm
  obtain ⟨st, hst, hle⟩ := hr _ he rfl rfl
  obtain rfl : st = .memory := of_decide_eq_true hst
  exact hle

theorem transfers_of_demoted (hl : Respects (Law kind cfg p) h)
    (hr : Respects (Recorded kind cfg p) h) (hd : Has (Demoted cfg image) h) :
    kind.rank kind.transfers ≤ kind.rank (lastEntered h) := by
  induction h using List.reverseRecOn with
  | nil => exact absurd hd (not_has_nil _)
  | append_singleton h e ih =>
    obtain ⟨hl₀, hle⟩ := respects_snoc.1 hl
    obtain ⟨hr₀, hre⟩ := respects_snoc.1 hr
    refine Nat.le_trans ?_ (rank_snoc hre)
    rcases has_snoc.1 hd with hd | rfl
    · exact ih hl₀ hr₀ hd
    · have hst : lastEntered h = .disk ∨ lastEntered h = .cutover := of_decide_eq_true (hre rfl)
      obtain ⟨-, -, -, -, -, -, hmoved⟩ := (law_forward rfl).1 hle
      cases kind with
      | cold =>
        rcases hst with hst | hst
        · rw [hst]
          exact Nat.le_refl _
        · rw [hst]
          decide
      | live =>
        have hmem := memory_of_migrated (reached_of_recorded hr₀) (hmoved rfl)
        rcases hst with hst | hst
        · rw [hst] at hmem
          exact absurd hmem (by decide)
        · rw [hst]
          exact Nat.le_refl _

theorem failRecorded_of_compensating (hl : Respects (Law kind cfg p) h)
    (hc : ∃ e ∈ h, e.call.isForward = false ∧ ∀ error, e.call ≠ .fail error) :
    Has FailRecorded h := by
  obtain ⟨⟨c, r⟩, he, hf, hno⟩ := hc
  obtain ⟨pre, post, hh⟩ := List.append_of_mem he
  have hle := hl.at_split hh
  unfold Law at hle
  rw [if_neg (by simp [hf])] at hle
  have hrec : Has FailRecorded pre := by
    cases c with
    | fail error => exact absurd rfl (hno error)
    | _ => exact hle
  exact hrec.extend (hh ▸ List.prefix_append _ _)

theorem primaries_of_undemoted (hl : Respects (Law kind cfg p) h)
    (hno : ¬ Has (Demoted cfg image) h) :
    primaries h .source cfg.pool image = true ∧ primaries h .dest cfg.pool image = false := by
  refine ⟨source_primary_of_undemoted hno, ?_⟩
  rw [← Bool.not_eq_true, dest_primary_iff]
  rintro ⟨e, he, hp⟩
  obtain ⟨pre, post, hh⟩ := List.append_of_mem he
  have hd := (demoted_before_dest_promotion hl hh hp).2
  refine hno (hd.extend ?_)
  rw [hh]
  exact List.prefix_append _ _

/-- What is known of a run that was cut off after `h`, by the row it has left: `st` is the step that
its percentage tells. -/
structure RowTells (kind : MigrationType) (cfg : Settings) (p : Plan) (row : RowRecord)
    (st : MigrationState) (h : Trace) : Prop where
  state : row.state = st ∨ row.state = .failed
  reached : Reached kind st h
  passed : Milestones kind cfg p st h
  compensated : (∃ e ∈ h, e.call.isForward = false ∧ ∀ error, e.call ≠ .fail error) →
    row.state = .failed
  guest : kind = .live → kind.rank st < kind.rank .memory → runningOn h = .source
  disks : kind.rank st < kind.rank kind.transfers → ∀ image,
    primaries h .source cfg.pool image = true ∧ primaries h .dest cfg.pool image = false

theorem rowTells_of_recorded (hl : Respects (Law kind cfg p) h)
    (hr : Respects (Recorded kind cfg p) h) (hp : ∀ e ∈ h, e.call.Paced kind) :
    RowTells kind cfg p (record h) (kind.stepAt (record h).progress) h := by
  rw [stepAt_record hp]
  refine ⟨?_, reached_of_recorded hr, milestones_of_recorded hr, ?_, ?_, ?_⟩
  · rw [record_state]
    rcases record_of_law hl with ⟨-, hfailed⟩ | ⟨-, hsame⟩
    · exact .inr hfailed
    · exact .inl hsame
  · intro hc
    rw [record_state]
    rcases record_of_law hl with ⟨-, hfailed⟩ | ⟨hclean, -⟩
    · exact hfailed
    · exact absurd (failRecorded_of_compensating hl hc) hclean
  · rintro rfl hlt
    by_contra hne
    have hdest : runningOn h = .dest := by
      cases hside : runningOn h with
      | source => exact absurd hside hne
      | dest => rfl
    have hmem := memory_of_migrated (reached_of_recorded hr) (runningOn_eq_dest_iff.1 hdest)
    omega
  · intro hlt image
    apply primaries_of_undemoted hl
    intro hd
    have hle := transfers_of_demoted hl hr hd
    omega

end NovaFederation
