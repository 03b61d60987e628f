import NovaFederation.Clusters
import NovaFederation.EngineFrame

/-!
# Where the VM is

The cold engine creates no VM on the destination, so the VM of a cold run that reaches its
cleanup is lost; the live engine deletes it on the source only after libvirt has moved it. The
guest moves in the memory step and its disks follow in the cutover step, one image after the
other.
-/

namespace NovaFederation
open History Coroutine
variable {kind : MigrationType} {cfg : Settings} {p : Plan} {h : Trace}

/-- The VM exists on one cluster, on the destination when `run()` returned `True`. -/
def VmConserved (run : Run) : Prop :=
  placement run.trace .source ≠ placement run.trace .dest ∧
    (run.result = .ok true → placement run.trace .dest = true)

theorem placement_live (hr : Respects (Law .live cfg p) h) :
    placement h = .only (runningOn h) := by
  induction h using List.reverseRecOn with
  | nil => rfl
  | append_singleton h e ih =>
    obtain ⟨hr, hl⟩ := respects_snoc.1 hr
    have ih := ih hr
    rw [placement_snoc, runningOn_snoc, ih]
    unfold Placement.apply
    split
    · obtain ⟨-, -, -, -, -, -, hm⟩ := (law_forward rfl).1 hl
      have hrun := runningOn_eq_dest_iff.2 (hm rfl)
      rw [hrun]
      funext side
      cases side <;> rfl
    · next vmId sourceHost destHost job =>
      simp only [runningApply]
      split_ifs <;> rfl
    · next _ hno =>
      have hrun : runningApply (runningOn h) e = runningOn h := by
        unfold runningApply
        split
        · exact absurd rfl (hno _ _ _ _)
        · rfl
      rw [hrun]

theorem placement_cold (hr : Respects (Law .cold cfg p) h) :
    placement h .dest = false ∧ (placement h .source = true ↔ ¬ Has VmDeleted h) := by
  induction h using List.reverseRecOn with
  | nil => simp [placement, Placement.only, Has]
  | append_singleton h e ih =>
    obtain ⟨hr, hl⟩ := respects_snoc.1 hr
    obtain ⟨hdst, hsrc⟩ := ih hr
    rw [placement_snoc, has_snoc, not_or, ← hsrc]
    unfold Placement.apply
    split
    · simp [hdst, VmDeleted]
    · obtain ⟨-, -, hk, -⟩ := (law_forward rfl).1 hl
      cases hk
    · next hno _ =>
      have hd : ¬ VmDeleted e := by
        intro hq
        obtain ⟨vmId, rfl⟩ := hq
        exact hno vmId () rfl
      simp [hdst, hd]

def StepRaised (kind : MigrationType) (run : Run) : Prop :=
  ∃ e ∈ run.trace, e.call.isForward = true ∧ escapes kind e = true

theorem Stopped.raised {s : EngineState} (hs : Stopped .cold cfg p s h) :
    ∃ e ∈ h, e.call.isForward = true ∧ escapes .cold e = true := by
  by_contra hno
  apply hs.escaped rfl
  intro e he
  refine ⟨hs.forward e he, ?_⟩
  by_contra hesc
  exact hno ⟨e, he, hs.forward e he, by simpa using hesc⟩

theorem cold_raised_iff (cfg : Settings) (ctx : MigrationContext) (O : World) :
    StepRaised .cold (MigrationType.cold.migrate cfg ctx O) ↔
      (MigrationType.cold.migrate cfg ctx O).result ≠ .ok true := by
  have hrep := report .cold cfg ctx O
  generalize MigrationType.cold.migrate cfg ctx O = run at hrep
  obtain ⟨result, s, h⟩ := run
  dsimp only [StepRaised] at hrep ⊢
  rcases result with x | _ | _
  · obtain ⟨error, s₀, h₀, hu⟩ := hrep
    obtain ⟨e, he, hesc⟩ := hu.stopped.raised
    obtain ⟨x, rfl⟩ := hu.tail
    exact iff_of_true ⟨e, List.mem_append_left _ he, hesc⟩ (by simp)
  · obtain ⟨error, s₀, h₀, hb⟩ := hrep
    obtain ⟨e, he, hesc⟩ := hb.stopped.raised
    obtain ⟨t, rfl, -⟩ := hb.tail
    exact iff_of_true ⟨e, List.mem_append_left _ he, hesc⟩ (by simp)
  · have hcl : Clean .cold h := Done.clean (Finished.done hrep)
    refine iff_of_false ?_ (by simp)
    intro hq
    obtain ⟨e, he, -, hesc⟩ := hq
    simp [(hcl e he).2] at hesc

theorem vm_conserved_iff (kind : MigrationType) (cfg : Settings) (ctx : MigrationContext)
    (O : World) :
    VmConserved (kind.migrate cfg ctx O) ↔
      (kind = .cold → StepRaised .cold (kind.migrate cfg ctx O) ∧
        ¬ Has VmDeleted (kind.migrate cfg ctx O).trace) := by
  have hr := law_run kind cfg ctx O
  cases kind with
  | cold =>
    rw [cold_raised_iff]
    obtain ⟨hdst, hsrc⟩ := placement_cold hr
    simp only [VmConserved, hdst, Bool.false_eq_true, ne_eq, Bool.not_eq_false, hsrc, imp_false,
      true_implies]
    exact and_comm
  | live =>
    have hrep := report .live cfg ctx O
    have hpl := placement_live hr
    simp only [reduceCtorEq, false_implies, iff_true, VmConserved, hpl]
    refine ⟨?_, fun hres => ?_⟩
    · cases runningOn (MigrationType.live.migrate cfg ctx O).trace <;> simp [Placement.only]
    · rw [hres] at hrep
      have hm := (Finished.relocated hrep).migrated rfl
      rw [runningOn_eq_dest_iff.2 hm]
      rfl

theorem cold_vm_lost :
    ¬ VmConserved (MigrationType.cold.migrate settings (connected .cold)
      (cooperative twoVolumes)) := by
  intro hcons
  have hdst := hcons.2 (by decide +kernel)
  revert hdst
  decide +kernel

/-! ### The disks of a running VM -/

/-- At every moment the images are primary where the guest runs. -/
def DisksFollowVm (cfg : Settings) (run : Run) : Prop :=
  Throughout (fun pre => ∀ image ∈ run.state.ctx.rbdImages,
    primaries pre (runningOn pre) cfg.pool image = true) run.trace

theorem undemoted_before_migrated {image : String} (hr : Respects (Law .live cfg p) h)
    (hm : ¬ Has Migrated h) : ¬ Has (Demoted cfg image) h := by
  intro hq
  obtain ⟨d, hd, rfl⟩ := hq
  obtain ⟨pre, post, rfl⟩ := List.append_of_mem hd
  obtain ⟨-, -, -, -, -, -, hmig⟩ := forward_clean hr rfl rfl
  exact hm ((hmig rfl).append _)

theorem unpromoted_before_migrated {image : String} {pre post : Trace} {e : CallEvent}
    (hr : Respects (Law .live cfg p) h) (hh : h = pre ++ e :: post) (he : Migrated e) :
    ¬ Has (PeerPromoted cfg .dest image) (pre ++ [e]) := by
  obtain ⟨vmId, sourceHost, destHost, job, rfl, -⟩ := he
  obtain ⟨-, -, -, hn⟩ := forward_clean hr hh rfl
  rw [has_snoc]
  intro hq
  rcases hq with ⟨d, hd, response, rfl, -⟩ | ⟨response, hd, -⟩
  · exact hn ⟨_, hd, .inl ⟨_, _, _, rfl⟩⟩
  · cases hd

theorem disks_follow_vm_iff (cfg : Settings) (ctx : MigrationContext) (O : World) :
    DisksFollowVm cfg (MigrationType.live.migrate cfg ctx O) ↔
      ((MigrationType.live.migrate cfg ctx O).state.ctx.rbdImages = [] ∨
        ¬ Has Migrated (MigrationType.live.migrate cfg ctx O).trace) := by
  have hr := law_run .live cfg ctx O
  generalize MigrationType.live.migrate cfg ctx O = run at hr ⊢
  constructor
  · intro hfollow
    by_contra hno
    rw [not_or, not_not] at hno
    obtain ⟨hne, m, hm, hmig⟩ := hno
    obtain ⟨pre, post, hh⟩ := List.append_of_mem hm
    obtain ⟨image, himg⟩ := List.exists_mem_of_ne_nil _ hne
    have hpri := hfollow (pre ++ [m]) ⟨post, by simp [hh]⟩ image himg
    rw [runningOn_eq_dest_iff.2 (has_snoc.2 (.inr hmig)), dest_primary_iff] at hpri
    exact unpromoted_before_migrated hr hh hmig hpri
  · rintro hok pre hpre image himg
    have hm : ¬ Has Migrated pre := by
      rcases hok with hnil | hm
      · simp [hnil] at himg
      · exact fun hmig => hm (hmig.extend hpre)
    have hrun : runningOn pre = .source := by
      cases hside : runningOn pre with
      | source => rfl
      | dest => exact absurd (runningOn_eq_dest_iff.1 hside) hm
    rw [hrun]
    exact source_primary_of_undemoted (undemoted_before_migrated (hr.restrict hpre) hm)

theorem guest_without_disks :
    (MigrationType.live.migrate settings (connected .live)
        (cooperative twoVolumes)).state.ctx.rbdImages = ["volume-a", "volume-b"] ∧
      ¬ DisksFollowVm settings (MigrationType.live.migrate settings (connected .live)
        (cooperative twoVolumes)) := by
  refine ⟨by decide, fun hfollow => ?_⟩
  -- the trace up to the reply of the migration thread
  have hpri := hfollow ((MigrationType.live.migrate settings (connected .live)
    (cooperative twoVolumes)).trace.take 10) (List.take_prefix _ _) "volume-a" (by decide)
  revert hpri
  decide

/-! ### The images on the destination -/

def DisksMoved (cfg : Settings) (run : Run) : Prop :=
  ∀ image ∈ run.state.ctx.rbdImages, primaries run.trace .dest cfg.pool image = true

/-- The agent of the destination answered, but never that it had promoted the image. -/
def Refused (cfg : Settings) (run : Run) (image : String) : Prop :=
  Has (fun e => ∃ response, e = ⟨.promoteRBDImage .dest cfg.pool image, .ok response⟩)
      run.trace ∧
    ¬ Has (PeerPromoted cfg .dest image) run.trace

theorem client_of_dest_promoted {image : String} (hr : Respects (Law kind cfg p) h)
    (hd : Has (PeerPromoted cfg .dest image) h) : p.hasClient = true := by
  obtain ⟨d, hd, response, rfl, -⟩ := hd
  obtain ⟨pre, post, rfl⟩ := List.append_of_mem hd
  obtain ⟨-, -, -, -, hcl, -⟩ := forward_clean hr rfl rfl
  exact hcl

theorem hasClient_migrate (kind : MigrationType) (cfg : Settings) (ctx : MigrationContext)
    (O : World) :
    (kind.migrate cfg ctx O).state.ctx.plan.hasClient = ctx.destGrpcClient.isSome := by
  have hfixed := (keeps_run kind cfg (EngineState.init ctx)).exec O []
  exact congrArg Option.isSome hfixed

theorem client_of_disks_moved (kind : MigrationType) (cfg : Settings) (ctx : MigrationContext)
    (O : World) (hm : DisksMoved cfg (kind.migrate cfg ctx O))
    (hne : (kind.migrate cfg ctx O).state.ctx.rbdImages ≠ []) :
    ctx.destGrpcClient.isSome = true := by
  obtain ⟨image, hi⟩ := List.exists_mem_of_ne_nil _ hne
  rw [← hasClient_migrate kind cfg ctx O]
  exact client_of_dest_promoted (law_run kind cfg ctx O) (dest_primary_iff.1 (hm image hi))

/-- No run that an entry point starts moves a disk, for want of a client. -/
theorem entry_points_move_nothing (kind : MigrationType) (cfg : Settings) (O : World)
    {ctx : MigrationContext}
    (hctx : (∃ migrationId vmId req live, ctx = runMigration cfg migrationId vmId req live) ∨
      ∃ migrationId vmId src dst options live,
        ctx = executeMigration migrationId vmId src dst options live)
    (hm : DisksMoved cfg (kind.migrate cfg ctx O)) :
    (kind.migrate cfg ctx O).state.ctx.rbdImages = [] := by
  by_contra hne
  have hcl := client_of_disks_moved kind cfg ctx O hm hne
  rcases hctx with ⟨_, _, _, _, rfl⟩ | ⟨_, _, _, _, _, _, rfl⟩ <;> cases hcl

theorem promoted_by_client {image : String} (hr : Respects (Law kind cfg p) h)
    (hcl : p.hasClient = true) (hp : Has (Promoted cfg image) h) :
    Has (fun e => ∃ response, e = ⟨.promoteRBDImage .dest cfg.pool image, .ok response⟩) h := by
  obtain ⟨a, ha, response, rfl⟩ | ⟨a, ha, rfl⟩ := exists_or.1 (hp.imp fun _ ha => and_or_left.1 ha)
  · exact ⟨_, ha, response, rfl⟩
  · obtain ⟨pre, post, rfl⟩ := List.append_of_mem ha
    obtain ⟨-, -, -, hno, -⟩ := forward_clean hr rfl rfl
    simp [hcl] at hno

theorem disks_moved_iff (kind : MigrationType) (cfg : Settings) (ctx : MigrationContext)
    (O : World) (hres : (kind.migrate cfg ctx O).result = .ok true) :
    DisksMoved cfg (kind.migrate cfg ctx O) ↔
      (kind.migrate cfg ctx O).state.ctx.rbdImages = [] ∨
        ctx.destGrpcClient.isSome = true ∧
          ∀ image ∈ (kind.migrate cfg ctx O).state.ctx.rbdImages,
            ¬ Refused cfg (kind.migrate cfg ctx O) image := by
  have hrep := report kind cfg ctx O
  have hr := law_run kind cfg ctx O
  have hclient := hasClient_migrate kind cfg ctx O
  constructor
  · intro hm
    by_cases hne : (kind.migrate cfg ctx O).state.ctx.rbdImages = []
    · exact .inl hne
    · refine .inr ⟨client_of_disks_moved kind cfg ctx O hm hne, ?_⟩
      intro image hi hq
      obtain ⟨-, hno⟩ := hq
      exact hno (dest_primary_iff.1 (hm image hi))
  · rintro (hnil | ⟨hcl, hans⟩) image hi
    · simp [hnil] at hi
    · rw [hres] at hrep
      have hp := (Finished.relocated hrep).promoted image hi
      have hresp := promoted_by_client hr (hclient.trans hcl) hp
      by_contra hno
      exact hans image hi ⟨hresp, fun hd => hno (dest_primary_iff.2 hd)⟩

theorem disks_moved_by_connected_run :
    DisksMoved settings (MigrationType.live.migrate settings (connected .live)
        (cooperative twoVolumes)) ↔
      (MigrationType.live.migrate settings (connected .live)
          (cooperative twoVolumes)).state.ctx.rbdImages = [] ∨
        (connected .live).destGrpcClient.isSome = true ∧
          ∀ image ∈ (MigrationType.live.migrate settings (connected .live)
              (cooperative twoVolumes)).state.ctx.rbdImages,
            ¬ Refused settings (MigrationType.live.migrate settings (connected .live)
              (cooperative twoVolumes)) image :=
  disks_moved_iff .live settings (connected .live) (cooperative twoVolumes) (by decide +kernel)

/-- A request to the API for a cold migration, with every call returning. -/
theorem success_without_disks :
    (MigrationType.cold.migrate settings
        (runMigration settings "m" "vm" { destClusterId := "cluster-b" } false)
        (cooperative twoVolumes)).result = .ok true ∧
      ¬ DisksMoved settings (MigrationType.cold.migrate settings
        (runMigration settings "m" "vm" { destClusterId := "cluster-b" } false)
        (cooperative twoVolumes)) := by
  refine ⟨by decide +kernel, fun hm => ?_⟩
  have hpri := hm "volume-a" (by decide +kernel)
  revert hpri
  decide +kernel

end NovaFederation
