import NovaFederation.EngineFrame
import NovaFederation.Phases
import NovaFederation.Clusters

/-!
# The lag that the disk step reads

The disk step of a live migration reads the mirror status of every image and enters the memory
step without looking at it. `Gate` says what a run has read when it ends before the disk step has
begun to read, inside its loop, or after the memory step was entered.
-/

namespace NovaFederation
open Coroutine History MigrationEngine
variable {cfg : Settings} {ctx : MigrationContext} {O : World} {s : EngineState}
  {images : List String} {h : Trace} {e : CallEvent}

def Call.reads : Call → Bool
  | .getMirrorStatus _ _ => true
  | _ => false

def Call.entersMemory : Call → Bool
  | .transition _ .memory _ => true
  | _ => false

def MemoryEntered (e : CallEvent) : Prop := e.call.entersMemory = true

instance : DecidablePred MemoryEntered := fun _ => inferInstanceAs (Decidable (_ = _))

def ReadRaised (e : CallEvent) : Prop := e.call.reads = true ∧ e.reply.isOk = false

instance : DecidablePred ReadRaised := fun _ => inferInstanceAs (Decidable (_ ∧ _))

def diskReading (pool image : String) : CallEvent → Option MirrorStatus
  | ⟨.getMirrorStatus p i, .ok status⟩ => if p = pool ∧ i = image then some status else none
  | _ => none

def readings (cfg : Settings) (image : String) (h : Trace) : List MirrorStatus :=
  h.filterMap (diskReading cfg.pool image)

/-- A read of the disk step was answered with a lag above the bound of the preflight. -/
def lags (cfg : Settings) : CallEvent → Bool
  | ⟨.getMirrorStatus _ _, .ok status⟩ => decide ((cfg.migrationMaxLagBytes : ℤ) < status.lagBytes)
  | _ => false

def ReadLags (cfg : Settings) (e : CallEvent) : Prop := lags cfg e = true

instance : DecidablePred (ReadLags cfg) := fun _ => inferInstanceAs (Decidable (_ = _))

/-- The memory step is entered only if the disk step has read each image within the bound. -/
def DiskGated (cfg : Settings) (run : Run) : Prop :=
  Has MemoryEntered run.trace → ∀ image ∈ run.state.ctx.rbdImages,
    readings cfg image run.trace ≠ [] ∧ ∀ status ∈ readings cfg image run.trace,
      status.lagBytes ≤ cfg.migrationMaxLagBytes

instance (cfg : Settings) (run : Run) : Decidable (DiskGated cfg run) :=
  inferInstanceAs (Decidable (_ → ∀ image ∈ run.state.ctx.rbdImages, _ ∧ ∀ status ∈ _, _))

/-! ### What a run has read -/

/-- The reads were those of the images in turn, and they all returned. -/
structure ReadThrough (cfg : Settings) (images : List String) (h : Trace) : Prop where
  each : ∀ image ∈ images, ∃ status, Has (· = ⟨.getMirrorStatus cfg.pool image, .ok status⟩) h
  only : ∀ e ∈ h, e.call.reads = true →
    ∃ image ∈ images, ∃ status, e = ⟨.getMirrorStatus cfg.pool image, .ok status⟩

inductive Gate (cfg : Settings) (images : List String) (h : Trace) : Prop
  | unread (hread : ∀ e ∈ h, e.call.reads = false) (hentered : ¬ Has MemoryEntered h)
  | raised (hraised : Has ReadRaised h) (hentered : ¬ Has MemoryEntered h)
  | passed (hread : ReadThrough cfg images h) (hentered : Has MemoryEntered h)

structure Unread (h : Trace) : Prop where
  read : ∀ e ∈ h, e.call.reads = false
  entered : ¬ Has MemoryEntered h

theorem Unread.snoc (hu : Unread h) (he : e.call.reads = false ∧ e.call.entersMemory = false) :
    Unread (h ++ [e]) where
  read := by
    intro a ha
    rcases List.mem_append.1 ha with ha | ha
    · exact hu.read a ha
    · rw [List.mem_singleton.1 ha]
      exact he.1
  entered := by
    rw [has_snoc, MemoryEntered, he.2]
    simpa using hu.entered

theorem ReadThrough.snoc (hr : ReadThrough cfg images h) (he : e.call.reads = false) :
    ReadThrough cfg images (h ++ [e]) where
  each image hi := by
    obtain ⟨status, hs⟩ := hr.each image hi
    exact ⟨status, hs.append _⟩
  only := by
    intro a ha hreads
    rcases List.mem_append.1 ha with ha | ha
    · exact hr.only a ha hreads
    · rw [List.mem_singleton.1 ha, he] at hreads
      cases hreads

theorem Unread.readThrough (hu : Unread h) : ReadThrough cfg [] h where
  each _ hi := by cases hi
  only e he hreads := by
    rw [hu.read e he] at hreads
    cases hreads

theorem ReadThrough.read (hr : ReadThrough cfg images h) (image : String) (status : MirrorStatus) :
    ReadThrough cfg (images ++ [image])
      (h ++ [⟨.getMirrorStatus cfg.pool image, .ok status⟩]) where
  each i hi := by
    rcases List.mem_append.1 hi with hi | hi
    · obtain ⟨status', hs⟩ := hr.each i hi
      exact ⟨status', hs.append _⟩
    · rw [List.mem_singleton.1 hi]
      exact ⟨status, has_snoc.2 (.inr rfl)⟩
  only := by
    intro a ha hreads
    rcases List.mem_append.1 ha with ha | ha
    · obtain ⟨i, hi, status', rfl⟩ := hr.only a ha hreads
      exact ⟨i, List.mem_append_left _ hi, status', rfl⟩
    · rw [List.mem_singleton.1 ha]
      exact ⟨image, by simp, status, rfl⟩

/-! ### The body -/

def imagesOf (s : EngineState) : List String := s.ctx.rbdImages

theorem blind_imagesOf : Blind imagesOf := ⟨fun _ _ _ => rfl, fun _ _ _ => rfl⟩

def Passed (cfg : Settings) (images : List String) (h : Trace) : Prop :=
  ReadThrough cfg images h ∧ Has MemoryEntered h

theorem wp_passed {α : Type} {p : Engine α} (hp : Calls (fun c => c.reads = false) p)
    (hk : Keeps imagesOf p) (hpassed : Passed cfg (imagesOf s) h) :
    wp p (fun _ s' h' => Passed cfg (imagesOf s') h') (fun _ s' h' => Gate cfg (imagesOf s') h')
      s h := by
  apply wp_mono (wp_frame hp hk (Passed cfg)
    (fun _ _ e he hq => ⟨hq.1.snoc he, hq.2.append [e]⟩) hpassed)
  · exact fun _ _ _ hq => hq
  · exact fun _ _ _ hq => .passed hq.1 hq.2

theorem IsStep.unreading {st : MigrationState} {step : Engine Unit} (hstep : IsStep st step)
    (hst : st ≠ .disk) : Calls (fun c => c.reads = false) step := by
  apply hstep.calls.mono
  intro c hc
  cases c <;> simp_all [Within, Call.within, Call.reads]

namespace LiveMigrationEngine

theorem wp_stepPreflight_unread (s : EngineState) :
    wp (stepPreflight cfg) (fun _ _ h' => Unread h')
      (fun _ s' h' => Gate cfg (imagesOf s') h') s [] := by
  have hstep : IsStep .preflight (stepPreflight cfg) := isStep_preflight _ _
  have hcalls : Calls (fun c => c.reads = false ∧ c.entersMemory = false)
      (stepPreflight cfg) := by
    apply hstep.calls.mono
    intro c hc
    cases c <;> simp_all [Within, Call.within, Call.reads, Call.entersMemory]
  have hnil : Unread [] := ⟨by simp, not_has_nil _⟩
  apply wp_mono (wp_calls hcalls Unread (fun _ _ he hu => hu.snoc he) hnil)
  · exact fun _ _ _ hu => hu
  · exact fun _ _ _ hu => .unread hu.read hu.entered

theorem wp_stepDiskSync_read (hu : Unread h) :
    wp (stepDiskSync cfg)
      (fun _ s' h' => ReadThrough cfg (imagesOf s') h' ∧ ¬ Has MemoryEntered h')
      (fun _ s' h' => Gate cfg (imagesOf s') h') s h := by
  rw [stepDiskSync, transition, wp_bind, wp_bind, wp_modify, wp_perform]
  have hu₁ : ∀ r, Unread (h ++ [⟨.transition .run .disk 15, r⟩]) :=
    fun r => hu.snoc ⟨rfl, rfl⟩
  refine ⟨fun _ => ?_, fun x => .unread (hu₁ _).read (hu₁ _).entered⟩
  rw [wp_bind, wp_read]
  refine wp_weaken (wp_forM (fun done s' h' => imagesOf s' = imagesOf s ∧
    ReadThrough cfg done h' ∧ ¬ Has MemoryEntered h') _ ?_
      ⟨rfl, (hu₁ _).readThrough, (hu₁ _).entered⟩) ?_
  · rintro done image rest s' h' - ⟨himages, hr, hn⟩
    have hquiet : ∀ r, ¬ Has MemoryEntered (h' ++ [⟨.getMirrorStatus cfg.pool image, r⟩]) := by
      intro r
      rw [has_snoc]
      rintro (hm | hm)
      · exact hn hm
      · cases hm
    rw [wp_bind, wp_perform]
    exact ⟨fun status => ⟨himages, hr.read image status, hquiet _⟩,
      fun x => .raised (has_snoc.2 (.inr ⟨rfl, rfl⟩)) (hquiet _)⟩
  · rintro _ s' h' ⟨himages, hr, hn⟩
    rw [himages]
    exact ⟨hr, hn⟩

theorem wp_stepMemory_passed (hr : ReadThrough cfg (imagesOf s) h) :
    wp stepMemory (fun _ s' h' => Passed cfg (imagesOf s') h')
      (fun _ s' h' => Gate cfg (imagesOf s') h') s h := by
  have hcalls := (isStep_stepMemory).unreading (by decide)
  have hkeeps := keeps_stepMemory blind_imagesOf
  have hpassed : ∀ r, Passed cfg (imagesOf s) (h ++ [⟨.transition .run .memory 25, r⟩]) :=
    fun r => ⟨hr.snoc rfl, has_snoc.2 (.inr rfl)⟩
  rw [stepMemory] at hcalls hkeeps ⊢
  rw [transition, wp_bind, wp_bind, wp_modify, wp_perform]
  refine ⟨fun _ => ?_, fun x => .passed (hpassed _).1 (hpassed _).2⟩
  exact wp_passed ((hcalls s).2 (.ok ())) ((hkeeps s).2 (.ok ())) (hpassed _)

theorem wp_body_gate (cfg : Settings) (ctx : MigrationContext) :
    wp (body cfg) (fun _ s' h' => Gate cfg (imagesOf s') h')
      (fun _ s' h' => Gate cfg (imagesOf s') h') (EngineState.init ctx) [] := by
  unfold body steps
  apply wp_seq (wp_stepPreflight_unread _)
  intro _ s₁ h₁ hu₁
  rw [wp_bind, wp_read, wp_ite]
  refine ⟨fun _ => .unread hu₁.read hu₁.entered, fun _ => ?_⟩
  apply wp_seq (wp_stepDiskSync_read hu₁)
  rintro _ s₂ h₂ ⟨hr₂, -⟩
  apply wp_seq (wp_stepMemory_passed hr₂)
  intro _ s₃ h₃ hp₃
  refine wp_weaken (wp_passed ?_ ?_ hp₃) fun _ _ _ hq => .passed hq.1 hq.2
  · exact .bind (isStep_stepCutover.unreading (by decide)) fun _ =>
      .bind (isStep_stepBgp.unreading (by decide)) fun _ =>
      .bind ((isStep_cleanup 96).unreading (by decide)) fun _ =>
      .bind (.bind (.modify _ _) fun _ => .perform rfl) fun _ => .pure _ _
  · exact .bind (keeps_stepCutover blind_imagesOf) fun _ =>
      .bind (keeps_stepBgp blind_imagesOf.record) fun _ => keeps_ending blind_imagesOf.record _

end LiveMigrationEngine

/-! ### Runs -/

/-- The failure record and the handlers read nothing. -/
theorem Gate.snoc (hg : Gate cfg images h) (he : e.call.isForward = false) :
    Gate cfg images (h ++ [e]) := by
  have hquiet : e.call.reads = false ∧ e.call.entersMemory = false := by
    generalize e.call = c at he
    cases c <;> first | exact ⟨rfl, rfl⟩ | cases he
  have hnot : ¬ Has MemoryEntered h → ¬ Has MemoryEntered (h ++ [e]) := by
    intro hn
    rw [has_snoc, MemoryEntered, hquiet.2]
    simpa using hn
  cases hg with
  | unread hread hn =>
    have hu := (Unread.mk hread hn).snoc hquiet
    exact .unread hu.read hu.entered
  | raised hraised hn => exact .raised (hraised.append [e]) (hnot hn)
  | passed hread hentered => exact .passed (hread.snoc hquiet.1) (hentered.append [e])

theorem gate_migrate (cfg : Settings) (ctx : MigrationContext) (O : World) :
    Gate cfg (MigrationType.live.migrate cfg ctx O).state.ctx.rbdImages
      (MigrationType.live.migrate cfg ctx O).trace :=
  migrate_of_body .live (fun p => Gate cfg p.images) (LiveMigrationEngine.wp_body_gate cfg ctx)
    (fun _ _ _ he hg => hg.snoc he) O

theorem mem_readings {image : String} {status : MirrorStatus} :
    status ∈ readings cfg image h ↔ ⟨.getMirrorStatus cfg.pool image, .ok status⟩ ∈ h := by
  rw [readings, List.mem_filterMap]
  constructor
  · rintro ⟨e, he, hr⟩
    unfold diskReading at hr
    split at hr
    · split_ifs at hr with hq
      obtain ⟨rfl, rfl⟩ := hq
      obtain rfl := Option.some.inj hr
      exact he
    · cases hr
  · intro hm
    exact ⟨_, hm, if_pos ⟨rfl, rfl⟩⟩

theorem readLags_iff : ReadLags cfg e ↔ ∃ pool image status,
    e = ⟨.getMirrorStatus pool image, .ok status⟩ ∧
      (cfg.migrationMaxLagBytes : ℤ) < status.lagBytes := by
  unfold ReadLags lags
  split
  · next pool image status =>
    rw [decide_eq_true_iff]
    constructor
    · exact fun hlag => ⟨pool, image, status, rfl, hlag⟩
    · rintro ⟨_, _, _, heq, hlag⟩
      cases heq
      exact hlag
  · next hno =>
    refine iff_of_false (by simp) ?_
    rintro ⟨pool, image, status, rfl, -⟩
    exact hno pool image status rfl

theorem ReadThrough.bounded_iff (hr : ReadThrough cfg images h) :
    (∀ image ∈ images, readings cfg image h ≠ [] ∧ ∀ status ∈ readings cfg image h,
      status.lagBytes ≤ cfg.migrationMaxLagBytes) ↔ ¬ Has (ReadLags cfg) h := by
  constructor
  · rintro hall ⟨e, he, hlags⟩
    obtain ⟨pool, image, status, rfl, hlag⟩ := readLags_iff.1 hlags
    obtain ⟨image', hi, status', heq⟩ := hr.only _ he rfl
    cases heq
    have hle := (hall image hi).2 status (mem_readings.2 he)
    omega
  · intro hn image hi
    obtain ⟨status, e, he, rfl⟩ := hr.each image hi
    refine ⟨List.ne_nil_of_mem (mem_readings.2 he), fun status' hs => ?_⟩
    by_contra hgt
    exact hn ⟨_, mem_readings.1 hs, readLags_iff.2 ⟨_, _, status', rfl, by omega⟩⟩

theorem ReadThrough.not_raised (hr : ReadThrough cfg images h) : ¬ Has ReadRaised h := by
  rintro ⟨e, he, hreads, hraised⟩
  obtain ⟨image, -, status, rfl⟩ := hr.only e he hreads
  cases hraised

/-- For every live migration, whatever the mirrors answer at the two checks. -/
theorem disk_gated_iff (cfg : Settings) (ctx : MigrationContext) (O : World) :
    DiskGated cfg (MigrationType.live.migrate cfg ctx O) ↔
      (Has (ReadLags cfg) (MigrationType.live.migrate cfg ctx O).trace →
        Has ReadRaised (MigrationType.live.migrate cfg ctx O).trace) := by
  have hgate := gate_migrate cfg ctx O
  rw [DiskGated]
  generalize MigrationType.live.migrate cfg ctx O = run at hgate
  cases hgate with
  | unread hread hn =>
    refine iff_of_true (fun hm => absurd hm hn) ?_
    rintro ⟨e, he, hlags⟩
    obtain ⟨pool, image, status, rfl, -⟩ := readLags_iff.1 hlags
    cases hread _ he
  | raised hraised hn => exact iff_of_true (fun hm => absurd hm hn) fun _ => hraised
  | passed hread hentered =>
    constructor
    · intro hg hlags
      exact absurd hlags (hread.bounded_iff.1 (hg hentered))
    · intro hcaught _
      exact hread.bounded_iff.2 fun hlags => hread.not_raised (hcaught hlags)

def fallsBehind : World
  | _, .getMirrorStatus pool image =>
    .ok ⟨image, pool, "up+replaying", "entries_behind_master=1", 4096, 0, false⟩
  | h, c => cooperative twoVolumes h c

/-- The migration goes on over a lag that the preflight would have refused. -/
theorem not_disk_gated :
    (MigrationType.live.migrate settings (connected .live) fallsBehind).result = .ok true ∧
      ¬ DiskGated settings
        (MigrationType.live.migrate settings (connected .live) fallsBehind) := by
  decide +kernel

end NovaFederation
