import Mathlib.Data.List.Forall2
import NovaFederation.Compute

/-!
# The sizes of the volumes at the destination

The cutover of a cold migration registers a volume for each image. It looks the size up under the
first attached id that occurs in the name of the image, and takes 10 GB when the lookup raises;
the cutover of a live migration registers nothing. `Registering` follows the loop: what has been
asked and what has been registered for the volumes done.
-/

namespace NovaFederation
open Coroutine History MigrationEngine
variable {cfg : Settings} {ctx : MigrationContext} {O : World} {s : EngineState} {h : Trace}
  {e : CallEvent} {ids done : List String} {sizeGb : String → ℕ}

/-! ### What a history says of volumes -/

def imageName (volumeId : String) : String := s!"volume-{volumeId}"

def attachedBy : CallEvent → List String
  | ⟨.getVm _, .ok vm⟩ => vm.volumeIds
  | _ => []

def attached (h : Trace) : List String := h.flatMap attachedBy

def lookup : CallEvent → Option (String × Except PyException VolumeInfo)
  | ⟨.getVolume volumeId, answer⟩ => some (volumeId, answer)
  | _ => none

def lookups (h : Trace) : List (String × Except PyException VolumeInfo) := h.filterMap lookup

def registration : CallEvent → Option (String × ℕ)
  | ⟨.createVolumeFromRbd _ image sizeGb _, .ok _⟩ => some (image, sizeGb)
  | _ => none

def registrations (h : Trace) : List (String × ℕ) := h.filterMap registration

def sizesOf (image : String) (rows : List (String × ℕ)) : List ℕ :=
  rows.filterMap fun row => if row.1 = image then some row.2 else none

/-- Each attached volume has arrived once, with its size. -/
def VolumesArrive (sizeGb : String → ℕ) (h : Trace) : Prop :=
  ∀ volumeId ∈ attached h,
    sizesOf (imageName volumeId) (registrations h) = [sizeGb volumeId]

instance (sizeGb : String → ℕ) (h : Trace) : Decidable (VolumesArrive sizeGb h) :=
  inferInstanceAs (Decidable (∀ volumeId ∈ attached h, _ = _))

def toldSize : Except PyException VolumeInfo → ℕ
  | .ok volume => volume.sizeGb
  | .error _ => 10

/-- The lookup for a volume gives its size: the first attached id in the name of its image is
that of a volume as large, or the lookup raises and the volume has 10 GB. -/
def SizeFound (sizeGb : String → ℕ) (ids : List String) (volumeId : String) :
    Except PyException VolumeInfo → Prop
  | .ok _ => (ids.find? (ColdMigrationEngine.isSubstring · (imageName volumeId))).map sizeGb =
      some (sizeGb volumeId)
  | .error _ => sizeGb volumeId = 10

/-- No volume is attached to a VM that is migrated live, or the lookups of the cold migration give
the sizes. -/
def SizesFound (sizeGb : String → ℕ) (h : Trace) : MigrationType → Prop
  | .cold => List.Forall₂ (SizeFound sizeGb (attached h)) (attached h)
      ((lookups h).map Prod.snd)
  | .live => attached h = []

/-- `get_volume` answers the size of the volume unless it raises. -/
def catalogued (sizeGb : String → ℕ) (O : World) : World
  | h, .getVolume volumeId => (O h (.getVolume volumeId)).map fun _ => ⟨sizeGb volumeId⟩
  | h, c => O h c

/-! ### Lists of rows -/

theorem sizesOf_cons_self (image : String) (size : ℕ) (rows : List (String × ℕ)) :
    sizesOf image ((image, size) :: rows) = size :: sizesOf image rows :=
  List.filterMap_cons_some (if_pos rfl)

theorem sizesOf_cons_of_ne {image : String} {row : String × ℕ} (hne : row.1 ≠ image)
    (rows : List (String × ℕ)) : sizesOf image (row :: rows) = sizesOf image rows :=
  List.filterMap_cons_none (if_neg hne)

theorem sizesOf_of_not_mem {image : String} {rows : List (String × ℕ)}
    (hnot : image ∉ rows.map Prod.fst) : sizesOf image rows = [] := by
  rw [sizesOf, List.filterMap_eq_nil_iff]
  intro row hrow
  rw [if_neg]
  rintro rfl
  exact hnot (List.mem_map_of_mem hrow)

theorem toList_imageName (volumeId : String) :
    (imageName volumeId).toList = "volume-".toList ++ volumeId.toList :=
  String.toList_append

theorem imageName_injective : Function.Injective imageName := by
  intro a b hab
  have hlist := congrArg String.toList hab
  rw [toList_imageName, toList_imageName, List.append_cancel_left_eq] at hlist
  exact String.toList_inj.1 hlist

/-- Distinct volumes are listed once each. -/
theorem sizesOf_zip_iff {sizes : List ℕ} (hnodup : ids.Nodup) (hlen : ids.length = sizes.length) :
    (∀ volumeId ∈ ids, sizesOf (imageName volumeId) ((ids.map imageName).zip sizes) =
      [sizeGb volumeId]) ↔ sizes = ids.map sizeGb := by
  induction ids generalizing sizes with
  | nil =>
    obtain rfl := List.length_eq_zero_iff.1 hlen.symm
    exact iff_of_true (by simp) rfl
  | cons volumeId ids ih =>
    obtain ⟨size, sizes, rfl⟩ := List.exists_of_length_succ sizes hlen.symm
    obtain ⟨hnot, hnodup⟩ := List.nodup_cons.1 hnodup
    have hlen : ids.length = sizes.length := Nat.succ.inj hlen
    have hrest : sizesOf (imageName volumeId) ((ids.map imageName).zip sizes) = [] := by
      apply sizesOf_of_not_mem
      rwa [List.map_fst_zip (by simp [hlen]), List.mem_map_of_injective imageName_injective]
    rw [List.forall_mem_cons, List.map_cons, List.zip_cons_cons, sizesOf_cons_self, hrest,
      List.map_cons, List.cons.injEq, List.cons.injEq, ← ih hnodup hlen]
    refine and_congr (and_iff_left rfl) (forall₂_congr fun other hother => ?_)
    rw [sizesOf_cons_of_ne]
    rintro heq
    obtain rfl := imageName_injective heq
    exact hnot hother

theorem isSubstring_imageName (volumeId : String) :
    ColdMigrationEngine.isSubstring volumeId (imageName volumeId) = true := by
  rw [ColdMigrationEngine.isSubstring, decide_eq_true_iff, toList_imageName]
  exact (List.suffix_append _ _).isInfix

/-! ### The loop of the cutover -/

def Call.asksCinder : Call → Bool
  | .getVm _ => true
  | .getVolume _ => true
  | .createVolumeFromRbd _ _ _ _ => true
  | _ => false

/-- The volumes done have been looked up in turn and registered with what was told. -/
structure Registering (ids done : List String) (h : Trace) : Prop where
  reported : attached h = ids
  looked : List.Forall₂ (fun volumeId l =>
    ids.find? (ColdMigrationEngine.isSubstring · (imageName volumeId)) = some l.1)
      done (lookups h)
  registered : registrations h =
    (done.map imageName).zip ((lookups h).map fun l => toldSize l.2)

def findings (s : EngineState) : Option VMDetails × List String := (s.ctx.vm, s.ctx.rbdImages)

theorem blind_findings : Blind findings := ⟨fun _ _ _ => rfl, fun _ _ _ => rfl⟩

theorem routeBlind_findings : RouteBlind findings := fun _ _ => rfl

theorem registration_eq_none (he : e.call.registers = false) : registration e = none := by
  unfold registration
  split
  · cases he
  · rfl

theorem Registering.other (hr : Registering ids done h) (he : e.call.asksCinder = false) :
    Registering ids done (h ++ [e]) := by
  have hattached : attachedBy e = [] := by
    unfold attachedBy
    split
    · cases he
    · rfl
  have hlookups : lookups (h ++ [e]) = lookups h := by
    apply filterMap_snoc_none
    unfold lookup
    split
    · cases he
    · rfl
  have hregisters : e.call.registers = false := by
    generalize e.call = c at he
    cases c <;> first | rfl | cases he
  constructor
  · rw [attached, List.flatMap_append, List.flatMap_singleton, hattached, List.append_nil]
    exact hr.reported
  · rw [hlookups]
    exact hr.looked
  · rw [hlookups, ← hr.registered]
    exact filterMap_snoc_none _ (registration_eq_none hregisters) h

theorem Registering.turn (hr : Registering ids done h) {volumeId found : String}
    (hfound : ids.find? (ColdMigrationEngine.isSubstring · (imageName volumeId)) = some found)
    (answer : Except PyException VolumeInfo) (pool name registered : String) :
    Registering ids (done ++ [volumeId]) (h ++ [⟨.getVolume found, answer⟩] ++
      [⟨.createVolumeFromRbd pool (imageName volumeId) (toldSize answer) name,
        .ok registered⟩]) := by
  have hlookups : lookups (h ++ [⟨.getVolume found, answer⟩] ++
      [⟨.createVolumeFromRbd pool (imageName volumeId) (toldSize answer) name,
        .ok registered⟩]) = lookups h ++ [(found, answer)] := by
    rw [lookups, filterMap_snoc_none lookup rfl]
    exact filterMap_snoc_some lookup rfl h
  have hlength : (done.map imageName).length =
      ((lookups h).map fun l => toldSize l.2).length := by
    rw [List.length_map, List.length_map, hr.looked.length_eq]
  constructor
  · rw [← hr.reported, attached, List.append_assoc, List.flatMap_append]
    exact List.append_nil _
  · rw [hlookups]
    exact List.rel_append hr.looked (.cons hfound .nil)
  · rw [hlookups, List.map_append, List.map_append, List.zip_append hlength, ← hr.registered,
      registrations, filterMap_snoc_some registration rfl, filterMap_snoc_none registration rfl]
    rfl

theorem wp_registering {α : Type} {p : Engine α} {d : Option VMDetails × List String}
    (hp : Calls (fun c => c.asksCinder = false) p) (hk : Keeps findings p)
    (hd : findings s = d) (hr : Registering ids done h) :
    wp p (fun _ s' h' => findings s' = d ∧ Registering ids done h') (fun _ _ _ => True) s h := by
  apply wp_mono (wp_frame hp hk (fun d' h' => d' = d ∧ Registering ids done h')
    (fun _ _ _ he hq => ⟨hq.1, hq.2.other he⟩) ⟨hd, hr⟩)
  · exact fun _ _ _ hq => hq
  · exact fun _ _ _ _ => trivial

theorem Registering.found (hr : Registering [] [] h) (vmId : String) (vm : VMDetails) :
    Registering vm.volumeIds [] (h ++ [⟨.getVm vmId, .ok vm⟩]) where
  reported := by
    rw [attached, List.flatMap_append]
    change attached h ++ _ = _
    rw [hr.reported]
    exact List.append_nil _
  looked := by
    have hnone : lookups h = [] := List.forall₂_nil_left_iff.1 hr.looked
    exact List.forall₂_nil_left_iff.2 ((filterMap_snoc_none lookup rfl h).trans hnone)
  registered := by
    rw [registrations, filterMap_snoc_none registration rfl]
    exact hr.registered

theorem IsStep.apart {st : MigrationState} {step : Engine Unit} (hstep : IsStep st step)
    (hpreflight : st ≠ .preflight) (hcutover : st ≠ .cutover) :
    Calls (fun c => c.asksCinder = false) step := by
  apply hstep.calls.mono
  intro c hc
  cases c <;> simp_all [Within, Call.within, Call.asksCinder]

theorem apart_transition (st : MigrationState) (progress : ℚ) :
    Calls (fun c => c.asksCinder = false) (transition .run st progress) :=
  .bind (.modify _ _) fun _ => .perform rfl

namespace ColdMigrationEngine

theorem wp_stepPreflight_findings (hfresh : s.ctx.rbdImages = []) (hnil : Registering [] [] h) :
    wp (stepPreflight cfg)
      (fun _ s' h' => ∃ vm, findings s' = (some vm, vm.volumeIds.map imageName) ∧
        Registering vm.volumeIds [] h') (fun _ _ _ => True) s h := by
  rw [stepPreflight, preflight]
  rw [transition, wp_bind, wp_bind, wp_modify, wp_perform]
  refine ⟨fun _ => ?_, fun _ => trivial⟩
  have hr₁ := hnil.other (e := ⟨.transition .run .preflight 5, .ok ()⟩) rfl
  rw [wp_bind, wp_read, wp_bind, wp_perform]
  refine ⟨fun vm => ?_, fun _ => trivial⟩
  rw [wp_bind, wp_modify, wp_ite]
  refine ⟨fun _ => ?_, fun _ => trivial⟩
  rw [wp_bind, wp_modify, wp_bind, wp_read]
  refine wp_weaken (wp_registering (.forM fun _ _ => ?_) (.forM fun _ => ?_) rfl
    (hr₁.found _ vm)) fun _ s' h' hq => ⟨vm, ?_, hq.2⟩
  · exact .bind (.perform rfl) fun _ => .ite (.pure _ _) (.throw _ _)
  · exact .bind (.perform _ _) fun _ => .ite (.pure _ _) (.throw _ _)
  · rw [hq.1, findings]
    change (some vm, s.ctx.rbdImages ++ _) = _
    rw [hfresh]
    rfl

/-- The image of an attached volume is looked up, and registered with what was told. -/
theorem wp_registerVolume {vm : VMDetails} {volumeId : String} (hmem : volumeId ∈ vm.volumeIds)
    (hr : Registering vm.volumeIds done h) :
    wp (do
        let volInfo ← lookupVolume vm (imageName volumeId)
        let sizeGb := match volInfo with
          | some volume => volume.sizeGb
          | none => 10
        let _ ← await (.createVolumeFromRbd cfg.pool (imageName volumeId) sizeGb
          s!"cnf-migrated-{imageName volumeId}"))
      (fun _ _ h' => Registering vm.volumeIds (done ++ [volumeId]) h') (fun _ _ _ => True) s h := by
  obtain ⟨found, hfound⟩ : ∃ found,
      vm.volumeIds.find? (isSubstring · (imageName volumeId)) = some found := by
    rw [← Option.isSome_iff_exists, List.find?_isSome]
    exact ⟨volumeId, hmem, isSubstring_imageName volumeId⟩
  rw [lookupVolume, hfound, wp_bind, wp_tryCatch, wp_bind, wp_perform]
  refine ⟨fun volume => ?_, fun x => ?_⟩
  · rw [wp_pure, wp_bind, wp_perform]
    exact ⟨fun registered => hr.turn hfound (.ok volume) _ _ registered, fun _ => trivial⟩
  · rw [wp_pure, wp_bind, wp_perform]
    exact ⟨fun registered => hr.turn hfound (.error x) _ _ registered, fun _ => trivial⟩

theorem wp_stepCutover_registering {vm : VMDetails}
    (hfindings : findings s = (some vm, vm.volumeIds.map imageName))
    (hr : Registering vm.volumeIds [] h) :
    wp (stepCutover cfg) (fun _ _ h' => Registering vm.volumeIds vm.volumeIds h')
      (fun _ _ _ => True) s h := by
  rw [stepCutover]
  apply wp_seq (wp_registering (apart_transition _ _) (keeps_transition blind_findings.record _ _ _)
    hfindings hr)
  rintro _ s₁ h₁ ⟨hfindings₁, hr₁⟩
  obtain ⟨hvm, himages⟩ := Prod.mk.inj hfindings₁
  rw [wp_bind, wp_read, hvm, himages]
  dsimp only
  simp only [List.forM_eq_forM, List.forM_map]
  refine wp_forM (fun done _ h' => Registering vm.volumeIds done h') _ ?_ hr₁
  intro done volumeId rest s₂ h₂ hids hr₂
  exact wp_registerVolume (hids ▸ by simp) hr₂

theorem wp_body_registering (cfg : Settings) (hfresh : ctx.rbdImages = []) :
    wp (body cfg) (fun b _ h' => b = true → Registering (attached h') (attached h') h')
      (fun _ _ _ => True) (EngineState.init ctx) [] := by
  unfold body steps
  apply wp_seq (wp_stepPreflight_findings hfresh ⟨rfl, .nil, rfl⟩)
  rintro _ s₁ h₁ ⟨vm, hfindings₁, hr₁⟩
  rw [wp_bind, wp_read, wp_ite]
  refine ⟨fun _ => nofun, fun _ => ?_⟩
  apply wp_seq (wp_registering (isStep_stepDisk.apart (by decide) (by decide))
    (keeps_stepDisk blind_findings) hfindings₁ hr₁)
  rintro _ s₂ h₂ ⟨hfindings₂, hr₂⟩
  apply wp_seq (wp_stepCutover_registering hfindings₂ hr₂)
  intro _ s₃ h₃ hr₃
  refine wp_weaken (wp_registering ?_ ?_ rfl hr₃) fun _ _ _ hq _ => hq.2.reported.symm ▸ hq.2
  · exact .bind (isStep_stepBgp.apart (by decide) (by decide)) fun _ =>
      .bind ((isStep_cleanup 95).apart (by decide) (by decide)) fun _ =>
      .bind (apart_transition _ _) fun _ => .pure _ _
  · exact .bind (keeps_stepBgp blind_findings routeBlind_findings) fun _ =>
      keeps_ending blind_findings.record _

end ColdMigrationEngine

/-! ### Runs -/

theorem LiveMigrationEngine.unregistering_body (cfg : Settings) : Unregistering (body cfg) := by
  have hcutover : Unregistering (stepCutover cfg) := by
    refine .bind (unregistering_transition _ _) fun _ => .bind (.read _) fun _ =>
      .bind (.forM fun _ _ => .bind (.perform rfl) fun _ => .perform rfl) fun _ =>
      .bind (.modify _ _) fun _ => .bind (.read _) fun _ => .forM fun _ _ => .ite ?_ (.perform rfl)
    exact .bind (.perform rfl) fun _ => .pure _ _
  have hpreflight : IsStep .preflight (stepPreflight cfg) := isStep_preflight _ _
  refine .bind (hpreflight.unregistering (by decide)) fun _ => .bind (.read _) fun _ =>
    .ite (.pure _ _) ?_
  exact .bind (isStep_stepDiskSync.unregistering (by decide)) fun _ =>
    .bind (isStep_stepMemory.unregistering (by decide)) fun _ => .bind hcutover fun _ =>
    .bind (isStep_stepBgp.unregistering (by decide)) fun _ =>
    .bind ((isStep_cleanup 96).unregistering (by decide)) fun _ =>
    .bind (unregistering_transition _ _) fun _ => .pure _ _

theorem LiveMigrationEngine.wp_body_unregistered (cfg : Settings) (ctx : MigrationContext) :
    wp (body cfg) (fun _ _ h' => registrations h' = []) (fun _ _ h' => registrations h' = [])
      (EngineState.init ctx) [] := by
  refine wp_calls (unregistering_body cfg) (fun h' => registrations h' = []) ?_ rfl
  intro h e he hnone
  exact (filterMap_snoc_none _ (registration_eq_none he) h).trans hnone

theorem mem_lookups {volumeId : String} {answer : Except PyException VolumeInfo} :
    (volumeId, answer) ∈ lookups h ↔ ⟨.getVolume volumeId, answer⟩ ∈ h := by
  rw [lookups, List.mem_filterMap]
  constructor
  · rintro ⟨e, he, hl⟩
    unfold lookup at hl
    split at hl
    · obtain ⟨rfl, rfl⟩ := Prod.mk.inj (Option.some.inj hl)
      exact he
    · cases hl
  · exact fun hm => ⟨_, hm, rfl⟩

theorem answered_catalogued {kind : MigrationType} {volume : VolumeInfo}
    {l : String × Except PyException VolumeInfo}
    (hl : l ∈ lookups (kind.migrate cfg ctx (catalogued sizeGb O)).trace)
    (hanswer : l.2 = .ok volume) : volume.sizeGb = sizeGb l.1 := by
  obtain ⟨volumeId, answer⟩ := l
  obtain ⟨pre, post, hout⟩ := List.append_of_mem (mem_lookups.1 hl)
  have hreply : answer = catalogued sizeGb O pre (.getVolume volumeId) :=
    exec_consistent _ _ _ [] pre _ post hout (Nat.zero_le _)
  rw [catalogued, show answer = .ok volume from hanswer] at hreply
  cases hworld : O pre (.getVolume volumeId) with
  | error x =>
    rw [hworld] at hreply
    cases hreply
  | ok other =>
    rw [hworld] at hreply
    obtain rfl := Except.ok.inj hreply
    rfl

theorem toldSize_iff {volumeId : String} {l : String × Except PyException VolumeInfo}
    (hfound : ids.find? (ColdMigrationEngine.isSubstring · (imageName volumeId)) = some l.1)
    (hl : ∀ volume, l.2 = .ok volume → volume.sizeGb = sizeGb l.1) :
    toldSize l.2 = sizeGb volumeId ↔ SizeFound sizeGb ids volumeId l.2 := by
  obtain ⟨found, answer⟩ := l
  cases answer with
  | error x => exact eq_comm
  | ok volume =>
    rw [toldSize, SizeFound, hfound, hl volume rfl, Option.map_some, Option.some_inj]

theorem toldSizes_iff {ls : List (String × Except PyException VolumeInfo)}
    (hlooked : List.Forall₂ (fun volumeId l =>
      ids.find? (ColdMigrationEngine.isSubstring · (imageName volumeId)) = some l.1) done ls)
    (hl : ∀ l ∈ ls, ∀ volume, l.2 = .ok volume → volume.sizeGb = sizeGb l.1) :
    (ls.map fun l => toldSize l.2) = done.map sizeGb ↔
      List.Forall₂ (SizeFound sizeGb ids) done (ls.map Prod.snd) := by
  induction hlooked with
  | nil => exact iff_of_true rfl .nil
  | cons hfound hrest ih =>
    obtain ⟨hhead, htail⟩ := List.forall_mem_cons.1 hl
    rw [List.map_cons, List.map_cons, List.map_cons, List.cons.injEq, List.forall₂_cons,
      toldSize_iff hfound hhead, ih htail]

theorem Registering.arrive_iff (hr : Registering (attached h) (attached h) h)
    (hnodup : (attached h).Nodup)
    (hl : ∀ l ∈ lookups h, ∀ volume, l.2 = .ok volume → volume.sizeGb = sizeGb l.1) :
    VolumesArrive sizeGb h ↔ SizesFound sizeGb h .cold := by
  have hlength : (attached h).length = ((lookups h).map fun l => toldSize l.2).length := by
    rw [List.length_map, hr.looked.length_eq]
  rw [VolumesArrive, hr.registered, sizesOf_zip_iff hnodup hlength, SizesFound,
    toldSizes_iff hr.looked hl]

/-- For every VM with distinct volumes, whatever sizes they have and whichever lookups raise. -/
theorem volumes_arrive_iff (kind : MigrationType) (cfg : Settings) (ctx : MigrationContext)
    (sizeGb : String → ℕ) (O : World) (hfresh : ctx.rbdImages = [])
    (hres : (kind.migrate cfg ctx (catalogued sizeGb O)).result = .ok true)
    (hnodup : (attached (kind.migrate cfg ctx (catalogued sizeGb O)).trace).Nodup) :
    VolumesArrive sizeGb (kind.migrate cfg ctx (catalogued sizeGb O)).trace ↔
      SizesFound sizeGb (kind.migrate cfg ctx (catalogued sizeGb O)).trace kind := by
  cases kind with
  | cold =>
    have hr := wp_of_true .cold (ColdMigrationEngine.wp_body_registering cfg hfresh) hres rfl
    exact hr.arrive_iff hnodup fun l hl volume hanswer => answered_catalogued hl hanswer
  | live =>
    have hnone := wp_of_true .live (LiveMigrationEngine.wp_body_unregistered cfg ctx) hres
    rw [VolumesArrive, hnone, SizesFound, List.eq_nil_iff_forall_not_mem]
    exact forall₂_congr fun volumeId _ => iff_of_false (by simp [sizesOf]) not_false

def sizes (volumeId : String) : ℕ := if volumeId = "1" then 5 else 20

def overlapping : VMDetails := ⟨"ACTIVE", "compute-1", ["10.0.0.5"], [], ["1", "11"]⟩

def cinderDown : World
  | _, .getVolume _ => .error ⟨.other, "connection refused"⟩
  | h, c => cooperative twoVolumes h c

/-- The lookups of a cold migration give the sizes of its two volumes. -/
theorem volumes_arrive_two : VolumesArrive sizes
    (MigrationType.cold.migrate settings (connected .cold)
      (catalogued sizes (cooperative twoVolumes))).trace :=
  (volumes_arrive_iff .cold settings (connected .cold) sizes (cooperative twoVolumes) rfl
    (by decide +kernel) (by decide +kernel)).2 (.cons rfl (.cons rfl .nil))

/-- A live migration registers no volume, a cold one may take the size of another volume, and
after a lookup that raises it takes 10 GB. -/
theorem volumes_do_not_arrive :
    ((MigrationType.live.migrate settings (connected .live)
        (catalogued sizes (cooperative twoVolumes))).result = .ok true ∧
      ¬ VolumesArrive sizes (MigrationType.live.migrate settings (connected .live)
        (catalogued sizes (cooperative twoVolumes))).trace) ∧
    ((MigrationType.cold.migrate settings (connected .cold)
        (catalogued sizes (cooperative overlapping))).result = .ok true ∧
      ¬ VolumesArrive sizes (MigrationType.cold.migrate settings (connected .cold)
        (catalogued sizes (cooperative overlapping))).trace) ∧
    (MigrationType.cold.migrate settings (connected .cold)
        (catalogued sizes cinderDown)).result = .ok true ∧
      ¬ VolumesArrive sizes (MigrationType.cold.migrate settings (connected .cold)
        (catalogued sizes cinderDown)).trace := by
  decide +kernel

end NovaFederation
