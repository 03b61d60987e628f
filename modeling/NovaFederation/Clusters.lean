import Mathlib.Data.List.Induction
import NovaFederation.SagaRuns

/-!
# What the calls do to the two clusters

Three folds of a trace: which images are primary on which cluster, on which cluster the VM
exists, and the state in the row of the migration. A call that raised changed nothing.
-/

namespace NovaFederation
open History
variable {cfg : Settings} {h : Trace} {image : String}

/-! ### Images -/

abbrev Primaries := Side → String → String → Bool

namespace Primaries

def initial : Primaries := fun side _ _ => decide (side = .source)

def set (w : Primaries) (side : Side) (pool image : String) (b : Bool) : Primaries :=
  fun side' pool' image' =>
    if side' = side ∧ pool' = pool ∧ image' = image then b else w side' pool' image'

/-- `demote` and `promote` act on the source; the agent of a peer acts on its own cluster, and
only when its answer says so. -/
def apply (w : Primaries) (e : CallEvent) : Primaries :=
  match e with
  | ⟨.demote pool image, .ok _⟩ => w.set .source pool image false
  | ⟨.promote pool image _, .ok _⟩ => w.set .source pool image true
  | ⟨.promoteRBDImage peer pool image, .ok response⟩ =>
    if response.success then w.set peer pool image true else w
  | _ => w

@[simp] theorem set_self (w : Primaries) (side : Side) (pool image : String) (b : Bool) :
    w.set side pool image b side pool image = b := by
  simp [set]

end Primaries

def primaries (h : Trace) : Primaries := replay Primaries.apply .initial h

theorem primaries_snoc (h : Trace) (e : CallEvent) :
    primaries (h ++ [e]) = (primaries h).apply e := by
  rw [primaries, replay_append]
  rfl

/-- The agent of the cluster promoted the image and said so. -/
def PeerPromoted (cfg : Settings) (peer : Side) (image : String) (e : CallEvent) : Prop :=
  ∃ response, e = ⟨.promoteRBDImage peer cfg.pool image, .ok response⟩ ∧ response.success = true

def SourcePromoted (cfg : Settings) (image : String) (e : CallEvent) : Prop :=
  (∃ force, e = ⟨.promote cfg.pool image force, .ok ()⟩) ∨ PeerPromoted cfg .source image e

theorem apply_source_demoted {e : CallEvent} (he : Demoted cfg image e) (w : Primaries) :
    w.apply e .source cfg.pool image = false := by
  obtain rfl := he
  simp [Primaries.apply]

theorem apply_source_promoted {e : CallEvent} (he : SourcePromoted cfg image e) (w : Primaries) :
    w.apply e .source cfg.pool image = true := by
  rcases he with ⟨force, rfl⟩ | ⟨response, rfl, hr⟩
  · simp [Primaries.apply]
  · simp [Primaries.apply, hr]

theorem apply_source_other {e : CallEvent} (hd : ¬ Demoted cfg image e)
    (hp : ¬ SourcePromoted cfg image e) (w : Primaries) :
    w.apply e .source cfg.pool image = w .source cfg.pool image := by
  unfold Primaries.apply
  split
  · next pool i _ =>
    have hne : ¬ (cfg.pool = pool ∧ image = i) := by
      intro hq
      obtain ⟨rfl, rfl⟩ := hq
      exact hd rfl
    simp [Primaries.set, hne]
  · next pool i force _ =>
    have hne : ¬ (cfg.pool = pool ∧ image = i) := by
      intro hq
      obtain ⟨rfl, rfl⟩ := hq
      exact hp (.inl ⟨force, rfl⟩)
    simp [Primaries.set, hne]
  · next peer pool i response =>
    split
    · next hr =>
      have hne : ¬ (Side.source = peer ∧ cfg.pool = pool ∧ image = i) := by
        intro hq
        obtain ⟨rfl, rfl, rfl⟩ := hq
        exact hp (.inr ⟨response, rfl, hr⟩)
      simp [Primaries.set, hne]
    · rfl
  · rfl

theorem apply_dest_promoted {e : CallEvent} (he : PeerPromoted cfg .dest image e)
    (w : Primaries) : w.apply e .dest cfg.pool image = true := by
  obtain ⟨response, rfl, hr⟩ := he
  simp [Primaries.apply, hr]

theorem apply_dest_other {e : CallEvent} (he : ¬ PeerPromoted cfg .dest image e)
    (w : Primaries) : w.apply e .dest cfg.pool image = w .dest cfg.pool image := by
  unfold Primaries.apply
  split
  · simp [Primaries.set]
  · simp [Primaries.set]
  · next peer pool i response =>
    split
    · next hr =>
      have hne : ¬ (Side.dest = peer ∧ cfg.pool = pool ∧ image = i) := by
        intro hq
        obtain ⟨rfl, rfl, rfl⟩ := hq
        exact he ⟨response, rfl, hr⟩
      simp [Primaries.set, hne]
    · rfl
  · rfl

theorem dest_primary_iff :
    primaries h .dest cfg.pool image = true ↔ Has (PeerPromoted cfg .dest image) h := by
  induction h using List.reverseRecOn with
  | nil => simp [primaries, Primaries.initial, Has]
  | append_singleton h e ih =>
    rw [has_snoc, ← ih, primaries_snoc]
    by_cases he : PeerPromoted cfg .dest image e
    · simp [apply_dest_promoted he, he]
    · simp only [apply_dest_other he, he, or_false]

theorem apply_source_kept {e : CallEvent} (hd : ¬ Demoted cfg image e) {w : Primaries}
    (hw : w .source cfg.pool image = true) : w.apply e .source cfg.pool image = true := by
  by_cases hp : SourcePromoted cfg image e
  · exact apply_source_promoted hp w
  · rw [apply_source_other hd hp]
    exact hw

theorem apply_source_lost {e : CallEvent} (hp : ¬ SourcePromoted cfg image e) {w : Primaries}
    (hw : w .source cfg.pool image = false) : w.apply e .source cfg.pool image = false := by
  by_cases hd : Demoted cfg image e
  · exact apply_source_demoted hd w
  · rw [apply_source_other hd hp]
    exact hw

theorem source_primary_of_undemoted (hd : ¬ Has (Demoted cfg image) h) :
    primaries h .source cfg.pool image = true :=
  replay_invariant Primaries.apply (fun w => w .source cfg.pool image = true)
    (fun _ e he => apply_source_kept fun hde => hd ⟨e, he, hde⟩) rfl

theorem source_primary_of_promoted {pre post : Trace} {e : CallEvent}
    (he : SourcePromoted cfg image e) (hd : ¬ Has (Demoted cfg image) post) :
    primaries (pre ++ e :: post) .source cfg.pool image = true :=
  replay_of_last Primaries.apply (fun w => w .source cfg.pool image = true)
    (apply_source_promoted he) (fun _ a ha => apply_source_kept fun hda => hd ⟨a, ha, hda⟩) _

theorem source_demoted_of_unpromoted {pre post : Trace} {e : CallEvent}
    (he : Demoted cfg image e) (hp : ¬ Has (SourcePromoted cfg image) post) :
    primaries (pre ++ e :: post) .source cfg.pool image = false :=
  replay_of_last Primaries.apply (fun w => w .source cfg.pool image = false)
    (apply_source_demoted he) (fun _ a ha => apply_source_lost fun hpa => hp ⟨a, ha, hpa⟩) _

/-! ### The VM -/

abbrev Placement := Side → Bool

namespace Placement

def only (side : Side) : Placement := fun side' => decide (side' = side)

/-- `migrateToURI3` undefines the domain on the source. Nothing else creates a VM. -/
def apply (w : Placement) (e : CallEvent) : Placement :=
  match e with
  | ⟨.deleteVm _, .ok _⟩ => fun side => decide (side = .dest) && w .dest
  | ⟨.doMigrate _ _ _, .ok job⟩ => if job.migrated then only .dest else w
  | _ => w

end Placement

def placement (h : Trace) : Placement := replay Placement.apply (.only .source) h

theorem placement_snoc (h : Trace) (e : CallEvent) :
    placement (h ++ [e]) = (placement h).apply e := by
  rw [placement, replay_append]
  rfl

def VmDeleted (e : CallEvent) : Prop := ∃ vmId, e = ⟨.deleteVm vmId, .ok ()⟩

def isVmDeleted : CallEvent → Bool
  | ⟨.deleteVm _, .ok _⟩ => true
  | _ => false

theorem isVmDeleted_iff {e : CallEvent} : isVmDeleted e = true ↔ VmDeleted e := by
  unfold isVmDeleted
  split
  · exact iff_of_true rfl ⟨_, rfl⟩
  · next hno =>
    refine iff_of_false (by simp) ?_
    intro hq
    obtain ⟨vmId, rfl⟩ := hq
    exact hno vmId () rfl

instance : DecidablePred VmDeleted := fun _ => decidable_of_iff _ isVmDeleted_iff

/-- The cluster on which the guest runs, as the migration thread moves it. -/
def runningApply (side : Side) (e : CallEvent) : Side :=
  match e with
  | ⟨.doMigrate _ _ _, .ok job⟩ => if job.migrated then .dest else side
  | _ => side

def runningOn (h : Trace) : Side := replay runningApply .source h

theorem runningOn_snoc (h : Trace) (e : CallEvent) :
    runningOn (h ++ [e]) = runningApply (runningOn h) e := by
  rw [runningOn, replay_append]
  rfl

theorem runningOn_eq_dest_iff : runningOn h = .dest ↔ Has Migrated h := by
  induction h using List.reverseRecOn with
  | nil => simp [runningOn, Has]
  | append_singleton h e ih =>
    rw [has_snoc, ← ih, runningOn_snoc]
    unfold runningApply
    split
    · next vmId sourceHost destHost job =>
      split_ifs with hj
      · simp [Migrated, hj]
      · simp [Migrated, hj]
    · next hno =>
      have hm : ¬ Migrated e := by
        intro hq
        obtain ⟨_, _, _, job, rfl, -⟩ := hq
        exact hno _ _ _ job rfl
      simp [hm]

/-! ### The row -/

def rowApply (row : MigrationState) (e : CallEvent) : MigrationState :=
  match e with
  | ⟨.transition _ state _, .ok _⟩ => state
  | ⟨.fail _, .ok _⟩ => .failed
  | _ => row

def rowState (h : Trace) : MigrationState := replay rowApply .pending h

theorem rowState_snoc (h : Trace) (e : CallEvent) :
    rowState (h ++ [e]) = rowApply (rowState h) e := by
  rw [rowState, replay_append]
  rfl

/-! ### A world in which nothing goes wrong -/

def cooperative (vm : VMDetails) : World
  | _, .transition _ _ _ => .ok ()
  | _, .fail _ => .ok ()
  | _, .getVm _ => .ok vm
  | _, .stopVm _ => .ok ()
  | _, .deleteVm _ => .ok ()
  | _, .getVolume _ => .ok ⟨1⟩
  | _, .createVolumeFromRbd _ _ _ _ => .ok ""
  | _, .preflightCheck _ _ _ => .ok (true, "")
  | _, .getMirrorStatus pool image => .ok ⟨image, pool, "", "", 0, 0, true⟩
  | _, .waitForSync pool image _ _ => .ok ⟨image, pool, "", "", 0, 0, true⟩
  | _, .demote _ _ => .ok ()
  | _, .promote _ _ _ => .ok ()
  | _, .promoteRBDImage _ _ _ => .ok ⟨true, ""⟩
  | _, .announce _ => .ok ()
  | _, .withdraw _ => .ok ()
  | _, .announceIP _ _ => .ok ⟨true⟩
  | _, .withdrawIP _ _ => .ok ⟨true⟩
  | _, .waitConvergence _ => .ok ()
  | _, .doMigrate _ _ _ => .ok ⟨none, none, none, none, none, none⟩
  | _, .monitorPolls => .ok 0
  | _, .jobInfo _ _ => .ok none
  | _, .abortJob _ _ => .ok ()

def settings : Settings := ⟨"rbd", 0, "cluster-a"⟩

def twoVolumes : VMDetails := ⟨"ACTIVE", "compute-1", ["10.0.0.5"], [], ["a", "b"]⟩

def connected (kind : MigrationType) : MigrationContext where
  migrationId := "m"
  vmId := "vm"
  sourceClusterId := "cluster-a"
  destClusterId := "cluster-b"
  migrationType := kind
  options := [("dest_host", some "compute-2")]
  sourceGrpcClient := some {}
  destGrpcClient := some {}

end NovaFederation
