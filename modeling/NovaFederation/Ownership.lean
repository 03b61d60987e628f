import NovaFederation.Conduct
import NovaFederation.HostRoutes
import NovaFederation.VolumeSizes

/-!
# What a migration lays hands on

An engine is given the id of a VM and learns the rest from Nova: the volumes that are attached to
the VM and its addresses. Whatever fails, no call of a run names another VM, another image or
another prefix. So the runs for two VMs lay hands on nothing in common, unless Nova reports a volume
or an address of both.
-/

namespace NovaFederation
open Coroutine History MigrationEngine
variable {cfg : Settings} {ctx : MigrationContext} {h t : Trace}

def addressesBy : CallEvent → List String
  | ⟨.getVm _, .ok vm⟩ => vm.ips ++ vm.floatingIps
  | _ => []

def reported (h : Trace) : List String := h.flatMap addressesBy

def ownImages (h : Trace) : List String := (attached h).map imageName

def ownPrefixes (h : Trace) : List String := (reported h).map (s!"{·}/32")

/-- The call names only what the engine was created with and what Nova has told of the VM
before. -/
def Call.Minds (cfg : Settings) (ctx : MigrationContext) (h : Trace) : Call → Prop
  | .getVm v => v = ctx.vmId
  | .stopVm v => v = ctx.vmId
  | .deleteVm v => v = ctx.vmId
  | .doMigrate v _ destHost =>
    v = ctx.vmId ∧ ctx.options.get "dest_host" "" = some destHost ∧ destHost ≠ ""
  | .jobInfo _ v => v = ctx.vmId
  | .abortJob _ v => v = ctx.vmId
  | .getVolume volumeId => volumeId ∈ attached h
  | .preflightCheck pool image _ => pool = cfg.pool ∧ image ∈ ownImages h
  | .getMirrorStatus pool image => pool = cfg.pool ∧ image ∈ ownImages h
  | .waitForSync pool image _ _ => pool = cfg.pool ∧ image ∈ ownImages h
  | .demote pool image => pool = cfg.pool ∧ image ∈ ownImages h
  | .promote pool image _ => pool = cfg.pool ∧ image ∈ ownImages h
  | .promoteRBDImage peer pool image => peer = .dest ∧ pool = cfg.pool ∧ image ∈ ownImages h
  | .createVolumeFromRbd pool image _ _ => pool = cfg.pool ∧ image ∈ ownImages h
  | .announce route => route.pfx ∈ ownPrefixes h
  | .withdraw pfx => pfx ∈ ownPrefixes h
  | .announceIP _ pfx => pfx ∈ ownPrefixes h
  | .withdrawIP _ pfx => pfx ∈ ownPrefixes h
  | .waitConvergence pfx => pfx ∈ ownPrefixes h
  | .transition _ _ _ => True
  | .fail _ => True
  | .monitorPolls => True

/-- A handler has captured nothing else either. -/
def Rollback.Minds (ctx : MigrationContext) (h : Trace) : Rollback → Prop
  | .disk => True
  | .cutover => True
  | .bgp prefixes => ∀ pfx ∈ prefixes, pfx ∈ ownPrefixes h
  | .tunnelAbort v _ => v = ctx.vmId

structure Minding (ctx : MigrationContext) (s : EngineState) (h : Trace) : Prop where
  guest : s.ctx.vmId = ctx.vmId
  options : s.ctx.options = ctx.options
  volumes : ∀ vm, s.ctx.vm = some vm → ∀ v ∈ vm.volumeIds, v ∈ attached h
  images : ∀ image ∈ s.ctx.rbdImages, image ∈ ownImages h
  addresses : ∀ ip ∈ s.ctx.vmIps, ip ∈ reported h
  rollbacks : ∀ rb ∈ s.rollbacks, rb.Minds ctx h

structure MigrationContext.Fresh (ctx : MigrationContext) : Prop where
  vm : ctx.vm = none
  rbdImages : ctx.rbdImages = []
  vmIps : ctx.vmIps = []

instance (ctx : MigrationContext) : Decidable ctx.Fresh :=
  decidable_of_iff (ctx.vm.isNone = true ∧ ctx.rbdImages = [] ∧ ctx.vmIps = [])
    ⟨fun h => ⟨Option.isNone_iff_eq_none.1 h.1, h.2.1, h.2.2⟩,
      fun h => ⟨Option.isNone_iff_eq_none.2 h.vm, h.rbdImages, h.vmIps⟩⟩

theorem MigrationContext.Fresh.minding {ctx : MigrationContext} (hf : ctx.Fresh) :
    Minding ctx (EngineState.init ctx) [] where
  guest := rfl
  options := rfl
  volumes := by
    intro vm hvm
    rw [EngineState.init, hf.vm] at hvm
    cases hvm
  images := by simp [EngineState.init, hf.rbdImages]
  addresses := by simp [EngineState.init, hf.vmIps]
  rollbacks := by simp [EngineState.init]

/-! ### What Nova has told is not forgotten -/

theorem attached_append (h t : Trace) : attached (h ++ t) = attached h ++ attached t :=
  List.flatMap_append

theorem reported_append (h t : Trace) : reported (h ++ t) = reported h ++ reported t :=
  List.flatMap_append

theorem mem_ownImages_append {image : String} (hi : image ∈ ownImages h) :
    image ∈ ownImages (h ++ t) := by
  rw [ownImages, attached_append, List.map_append]
  exact List.mem_append_left _ hi

theorem mem_ownPrefixes_append {pfx : String} (hp : pfx ∈ ownPrefixes h) :
    pfx ∈ ownPrefixes (h ++ t) := by
  rw [ownPrefixes, reported_append, List.map_append]
  exact List.mem_append_left _ hp

theorem Rollback.Minds.append {rb : Rollback} (hrb : rb.Minds ctx h) : rb.Minds ctx (h ++ t) := by
  cases rb with
  | disk => trivial
  | cutover => trivial
  | bgp prefixes => exact fun pfx hpfx => mem_ownPrefixes_append (hrb pfx hpfx)
  | tunnelAbort v sourceHost => exact hrb

theorem Call.Minds.append {c : Call} (hc : c.Minds cfg ctx h) : c.Minds cfg ctx (h ++ t) := by
  have hi : ∀ {pool image : String}, pool = cfg.pool ∧ image ∈ ownImages h →
      pool = cfg.pool ∧ image ∈ ownImages (h ++ t) := fun hq => ⟨hq.1, mem_ownImages_append hq.2⟩
  cases c with
  | getVolume v =>
    change v ∈ attached (h ++ t)
    rw [attached_append]
    exact List.mem_append_left _ hc
  | preflightCheck pool image maxLag => exact hi hc
  | getMirrorStatus pool image => exact hi hc
  | waitForSync pool image maxLag timeout => exact hi hc
  | demote pool image => exact hi hc
  | promote pool image force => exact hi hc
  | promoteRBDImage peer pool image => exact ⟨hc.1, hi hc.2⟩
  | createVolumeFromRbd pool image sizeGb name => exact hi hc
  | announce route => exact mem_ownPrefixes_append hc
  | withdraw pfx => exact mem_ownPrefixes_append hc
  | announceIP peer pfx => exact mem_ownPrefixes_append hc
  | withdrawIP peer pfx => exact mem_ownPrefixes_append hc
  | waitConvergence pfx => exact mem_ownPrefixes_append hc
  | _ => exact hc

theorem minds_of_mem (hr : Respects (Call.Minds cfg ctx) h) {e : CallEvent} (he : e ∈ h) :
    e.call.Minds cfg ctx h := by
  obtain ⟨pre, post, rfl⟩ := List.append_of_mem he
  exact (hr.at_split rfl).append

theorem lasting_minding (ctx : MigrationContext) : Lasting (Minding ctx) := by
  intro s h e hm
  refine ⟨hm.guest, hm.options, fun vm hvm v hv => ?_, fun i hi => ?_, fun ip hip => ?_,
    fun rb hrb => ?_⟩
  · rw [attached_append]
    exact List.mem_append_left _ (hm.volumes vm hvm v hv)
  · exact mem_ownImages_append (hm.images i hi)
  · rw [reported_append]
    exact List.mem_append_left _ (hm.addresses ip hip)
  · exact (hm.rollbacks rb hrb).append

theorem mem_attached {vmId : String} {vm : VMDetails}
    (hh : Has (· = ⟨.getVm vmId, .ok vm⟩) h) {v : String}
    (hv : v ∈ vm.volumeIds) : v ∈ attached h := by
  obtain ⟨_, hmem, rfl⟩ := hh
  exact List.mem_flatMap.2 ⟨_, hmem, hv⟩

theorem mem_reported {vmId : String} {vm : VMDetails}
    (hh : Has (· = ⟨.getVm vmId, .ok vm⟩) h) {ip : String}
    (hip : ip ∈ vm.ips ++ vm.floatingIps) : ip ∈ reported h := by
  obtain ⟨_, hmem, rfl⟩ := hh
  exact List.mem_flatMap.2 ⟨_, hmem, hip⟩

/-! ### What the engines share -/

/-- A coroutine of the engine that lays hands on nothing else. -/
abbrev Minded (cfg : Settings) (ctx : MigrationContext) {α : Type} (p : Engine α) : Prop :=
  Upholds (Call.Minds cfg ctx) (Minding ctx) p

abbrev MindedSince (cfg : Settings) (ctx : MigrationContext) (s₀ : EngineState) {α : Type}
    (p : Engine α) : Prop :=
  Upholds (Call.Minds cfg ctx) (fun s h => Minding ctx s h ∧ Minding ctx s₀ h) p

variable {s₀ : EngineState} {α : Type} {p : Engine α}

theorem lasting_since (ctx : MigrationContext) (s₀ : EngineState) :
    Lasting fun s h => Minding ctx s h ∧ Minding ctx s₀ h :=
  (lasting_minding ctx).and fun _ => lasting_minding ctx s₀

theorem Minded.since (hp : Minded cfg ctx p) (s₀ : EngineState) :
    MindedSince cfg ctx s₀ p :=
  hp.frame (lasting_minding ctx s₀)

theorem minded_await {c : Call} (hc : ∀ h, Minding ctx s₀ h → c.Minds cfg ctx h) :
    MindedSince cfg ctx s₀ (await c) :=
  .perform (lasting_since ctx s₀) fun _ h hm => hc h hm.2

theorem minded_transition (task : Task) (state : MigrationState) (progress : ℚ) :
    Minded cfg ctx (transition task state progress) :=
  .bind (.modify fun _ _ hm => { hm with })
    fun _ => .perform (lasting_minding ctx) fun _ _ _ => trivial

theorem minded_fail (error : String) : Minded cfg ctx (fail error) :=
  .bind (.modify fun _ _ hm => { hm with })
    fun _ => .perform (lasting_minding ctx) fun _ _ _ => trivial

theorem Minding.register {s : EngineState} (hm : Minding ctx s h) {fn : Rollback}
    (hfn : fn.Minds ctx h) : Minding ctx { s with rollbacks := s.rollbacks ++ [fn] } h := by
  refine ⟨hm.guest, hm.options, hm.volumes, hm.images, hm.addresses, fun rb hrb => ?_⟩
  rcases List.mem_append.1 hrb with hrb | hrb
  · exact hm.rollbacks rb hrb
  · rw [List.mem_singleton.1 hrb]
    exact hfn

theorem minded_registerRollback {fn : Rollback}
    (hfn : ∀ h, Minding ctx s₀ h → fn.Minds ctx h) :
    MindedSince cfg ctx s₀ (registerRollback fn) :=
  .modify fun _ h hm => ⟨hm.1.register (hfn h hm.2), hm.2⟩

theorem Minding.image {s : EngineState} (hm : Minding ctx s h) {image : String}
    (hi : image ∈ s.ctx.rbdImages) : cfg.pool = cfg.pool ∧ image ∈ ownImages h :=
  ⟨rfl, hm.images image hi⟩

theorem Minding.prefixes {s : EngineState} (hm : Minding ctx s h) {pfx : String}
    (hp : pfx ∈ prefixes s.ctx) : pfx ∈ ownPrefixes h := by
  obtain ⟨ip, hip, rfl⟩ := List.mem_map.1 hp
  exact List.mem_map_of_mem (hm.addresses ip hip)

theorem minded_promoteAll : Minded cfg ctx (promoteAll cfg) := by
  refine .read_bind fun s => .forM fun image hi => .ite (fun _ => ?_) fun _ => ?_
  · exact .bind (minded_await fun _ hm => ⟨rfl, hm.image hi⟩) fun _ => .pure _
  · exact minded_await fun _ hm => hm.image hi

theorem minded_forcePromoteAll : Minded cfg ctx (forcePromoteAll cfg) :=
  .read_bind fun _ => .forM fun _ hi =>
    .tryCatch (minded_await fun _ hm => hm.image hi) fun _ => .pure _

theorem minded_cleanup (progress : ℚ) : Minded cfg ctx (cleanup progress) :=
  .bind (minded_transition _ _ _) fun _ => .read_bind fun _ =>
    .tryCatch (minded_await fun _ hm => hm.guest) fun _ => .pure _

theorem minded_handoff {peer : Side} (nextHop : Option String)
    (client : Option (CNFControlStub peer)) :
    MindedSince cfg ctx s₀ (BGPManager.handoff (prefixes s₀.ctx) nextHop client) := by
  refine .bind (.forM fun pfx hp => minded_await fun _ hm => hm.prefixes hp) fun _ =>
    .bind (.forM fun pfx hp => .tryCatch (.bind ?_ fun _ => .pure _) fun _ => .pure _) fun _ =>
    .forM fun pfx hp => minded_await fun _ hm => hm.prefixes hp
  cases client with
  | none => exact .throw _
  | some stub => exact minded_await fun _ hm => hm.prefixes hp

/-- What the preflight step finds is what Nova has told. -/
theorem minded_preflight (admits : String → Bool) (refusal : String → VMDetails → String) :
    Minded cfg ctx (preflight cfg admits refusal) := by
  refine .bind (minded_transition _ _ _) fun _ => .read_bind fun s₁ => ?_
  refine .perform_bind (lasting_since ctx s₁) (fun _ _ hm => hm.2.guest) fun vm => ?_
  refine .bind (.modify fun s h hm => ?_) fun _ => .ite (fun _ => ?_) fun _ => .throw _
  · obtain ⟨⟨hm, hm₁⟩, htold⟩ := hm
    refine ⟨⟨{ hm with volumes := fun vm' hvm v hv => ?_ }, hm₁⟩, htold⟩
    obtain rfl : vm = vm' := Option.some.inj hvm
    exact mem_attached htold hv
  · refine .bind (.modify fun s h hm => ?_) fun _ => ?_
    · obtain ⟨⟨hm, hm₁⟩, htold⟩ := hm
      refine ⟨⟨{ hm with images := fun i hi => ?_, addresses := fun ip hip => ?_ }, hm₁⟩, htold⟩
      · rcases List.mem_append.1 hi with hi | hi
        · exact hm.images i hi
        · obtain ⟨v, hv, rfl⟩ := List.mem_map.1 hi
          exact List.mem_map_of_mem (mem_attached htold hv)
      · apply mem_reported htold
        dsimp only at hip
        split_ifs at hip
        · exact List.mem_append_left _ hip
        · exact List.mem_append_right _ hip
    · refine .read_bind fun s₂ => .forM fun image hi => ?_
      refine .bind (.perform ?_ fun _ _ hm => hm.2.1.1.image hi) fun answer => ?_
      · exact ((lasting_since ctx s₁).and fun _ _ _ hh => hh.append _).and
          fun _ h e hm => ⟨lasting_since ctx s₁ s₂ h e hm.1, hm.2.append _⟩
      · exact .ite (fun _ => .pure _) fun _ => .throw _

/-! ### The engines -/

namespace ColdMigrationEngine

theorem minded_stepDisk : Minded cfg ctx (stepDisk cfg) := by
  refine .bind (minded_transition _ _ _) fun _ => .read_bind fun s => ?_
  refine .bind (.ite (fun _ => minded_await fun _ hm => hm.guest) fun _ => .pure _) fun _ => ?_
  refine .bind (.forM fun image hi => ?_) fun _ => .bind (.forM fun image hi => ?_) fun _ => ?_
  · exact .bind (minded_await fun _ hm => hm.image hi) fun _ => .pure _
  · exact minded_await fun _ hm => hm.image hi
  · exact .bind (minded_registerRollback fun _ _ => trivial) fun _ =>
      .bind (minded_promoteAll.since s) fun _ =>
        (minded_transition _ _ _).since s

theorem minded_lookupVolume {vm : VMDetails} (hvm : s₀.ctx.vm = some vm) (image : String) :
    MindedSince cfg ctx s₀ (lookupVolume vm image) := by
  unfold lookupVolume
  split
  · next volumeId hfound =>
    have hv := List.mem_of_find?_eq_some hfound
    exact .tryCatch (.bind (minded_await fun _ hm => hm.volumes vm hvm volumeId hv) fun _ =>
      .pure _) fun _ => .pure _
  · exact .pure _

theorem minded_stepCutover : Minded cfg ctx (stepCutover cfg) := by
  refine .bind (minded_transition _ _ _) fun _ => .read_bind fun s => ?_
  cases hvm : s.ctx.vm with
  | none => exact .pure _
  | some vm =>
    refine .forM fun image hi => .bind (minded_lookupVolume hvm image) fun _ => ?_
    exact .bind (minded_await fun _ hm => hm.image hi) fun _ => .pure _

theorem minded_stepBgp : Minded cfg ctx stepBgp := by
  refine .bind (minded_transition _ _ _) fun _ => .read_bind fun s => ?_
  refine .ite (fun _ => .pure _) fun _ => .bind (minded_handoff _ _) fun _ => ?_
  exact minded_registerRollback fun _ hm _ hp => hm.prefixes hp

end ColdMigrationEngine

namespace LiveMigrationEngine

theorem minded_stepDiskSync : Minded cfg ctx (stepDiskSync cfg) :=
  .bind (minded_transition _ _ _) fun _ => .read_bind fun _ => .forM fun _ hi =>
    .bind (minded_await fun _ hm => hm.image hi) fun _ => .pure _

theorem minded_monitorProgress (sourceHost : String) (polls : ℕ) :
    MindedSince cfg ctx s₀ (QEMUMigrationTunnel.monitorProgress sourceHost s₀.ctx.vmId
      (progressCb .monitor) polls) := by
  induction polls with
  | zero => exact .pure _
  | succ polls ih =>
    have hpoll : MindedSince cfg ctx s₀
        (QEMUMigrationTunnel.getProgressPct sourceHost s₀.ctx.vmId) := by
      refine .tryCatch (.bind (minded_await fun _ hm => hm.guest) fun info => ?_) fun _ => .pure _
      cases info with
      | none => exact .pure _
      | some info => exact .ite (fun _ => .pure _) fun _ => .pure _
    have hround : MindedSince cfg ctx s₀ (tryCatch (do
        let pct ← QEMUMigrationTunnel.getProgressPct sourceHost s₀.ctx.vmId
        progressCb .monitor pct) fun _ => pure ()) :=
      .tryCatch (.bind hpoll fun _ => (minded_transition _ _ _).since s₀) fun _ => .pure _
    refine .bind (p := read) ?_ fun s => .ite (fun _ => .pure _) fun _ => .bind hround fun _ => ih
    exact fun _ _ hq => hq

theorem minded_stepMemory : Minded cfg ctx stepMemory := by
  refine .bind (minded_transition _ _ _) fun _ => .read_bind fun s => ?_
  cases s.ctx.vm with
  | none => exact .pure _
  | some vm =>
    dsimp only
    split
    · exact .throw _
    · exact .throw _
    · next destHost hempty hhost =>
      refine .bind (minded_registerRollback fun _ hm => hm.guest) fun _ => ?_
      refine .bind (.tryCatch (minded_await fun _ _ => trivial) fun _ => .pure _) fun polls => ?_
      refine .bind (minded_monitorProgress vm.host polls) fun _ => ?_
      refine .bind (minded_await fun _ hm => ⟨hm.guest, ?_, ?_⟩) fun job => ?_
      · rw [← hm.options]
        exact hhost
      · rintro rfl
        exact hempty rfl
      · cases job.raised with
        | none => exact (minded_transition _ _ _).since s
        | some e => exact .throw _

theorem minded_stepCutover : Minded cfg ctx (stepCutover cfg) := by
  refine .bind (minded_transition _ _ _) fun _ => .read_bind fun s => ?_
  refine .bind (.forM fun image hi => ?_) fun _ => ?_
  · exact .bind (minded_await fun _ hm => hm.image hi) fun _ =>
      minded_await fun _ hm => hm.image hi
  · exact .bind (minded_registerRollback fun _ _ => trivial) fun _ =>
      minded_promoteAll.since s

theorem minded_stepBgp : Minded cfg ctx stepBgp :=
  .bind (minded_transition _ _ _) fun _ => .read_bind fun _ =>
    .ite (fun _ => .pure _) fun _ => minded_handoff _ _

end LiveMigrationEngine

theorem minded_body (kind : MigrationType) : Minded cfg ctx (kind.body cfg) := by
  cases kind with
  | cold =>
    open ColdMigrationEngine in
    refine .bind (minded_preflight _ _) fun _ => .read_bind fun s =>
      .ite (fun _ => .pure _) fun _ => Minded.since (.bind minded_stepDisk fun _ =>
        .bind minded_stepCutover fun _ => .bind minded_stepBgp fun _ =>
          .bind (minded_cleanup _) fun _ => .bind (minded_transition _ _ _) fun _ => .pure _) s
  | live =>
    open LiveMigrationEngine in
    refine .bind (minded_preflight _ _) fun _ => .read_bind fun s =>
      .ite (fun _ => .pure _) fun _ => Minded.since (.bind minded_stepDiskSync fun _ =>
        .bind minded_stepMemory fun _ => .bind minded_stepCutover fun _ =>
          .bind minded_stepBgp fun _ => .bind (minded_cleanup _) fun _ =>
            .bind (minded_transition _ _ _) fun _ => .pure _) s

/-! ### Rolling back -/

theorem minded_bgpRollback {prefixes : List String} {peer : Side}
    (client : Option (CNFControlStub peer)) :
    Upholds (Call.Minds cfg ctx)
      (fun s h => Minding ctx s h ∧ Rollback.Minds ctx h (.bgp prefixes))
      (BGPManager.rollback prefixes client) := by
  have hlast : Lasting fun s h => Minding ctx s h ∧ Rollback.Minds ctx h (.bgp prefixes) :=
    (lasting_minding ctx).and fun _ _ _ hm => hm.append
  refine .forM fun pfx hp => .bind (.perform hlast fun _ _ hm => hm.2 pfx hp) fun _ => ?_
  refine .tryCatch (.bind ?_ fun _ => .pure _) fun _ => .pure _
  cases client with
  | none => exact .throw _
  | some stub => exact .perform hlast fun _ _ hm => hm.2 pfx hp

theorem minded_invoke (rb : Rollback) :
    Upholds (Call.Minds cfg ctx) (fun s h => Minding ctx s h ∧ rb.Minds ctx h)
      (invoke cfg rb) := by
  have hlast : ∀ h e, rb.Minds ctx h → rb.Minds ctx (h ++ [e]) := fun _ _ hm => hm.append
  cases rb with
  | disk => exact minded_forcePromoteAll.frame hlast
  | cutover => exact minded_forcePromoteAll.frame hlast
  | bgp prefixes =>
    refine .bind (p := read) (fun _ _ hq => hq) fun s => ?_
    exact minded_bgpRollback _
  | tunnelAbort v sourceHost =>
    refine .bind (.modify fun s h hm => ⟨{ hm.1 with }, hm.2⟩) fun _ => ?_
    exact .tryCatch (.perform ((lasting_minding ctx).and fun _ => hlast) fun _ _ hm => hm.2)
      fun _ => .pure _

theorem minded_runRollbacks : Minded cfg ctx (runRollbacks cfg) := by
  refine .read_bind fun s => .forM fun rb hrb => ?_
  have hinvoke : MindedSince cfg ctx s (invoke cfg rb) :=
    ((minded_invoke rb).frame (lasting_minding ctx s)).of_iff fun s' h =>
      ⟨fun hm => ⟨hm.1.1, hm.2⟩,
        fun hm => ⟨⟨hm.1, hm.2.rollbacks rb (List.mem_reverse.1 hrb)⟩, hm.2⟩⟩
  refine .bind (.modify fun s' h hm => ⟨{ hm.1 with }, hm.2⟩) fun _ => ?_
  exact .tryCatch hinvoke fun _ => .pure _

theorem minded_run (kind : MigrationType) : Minded cfg ctx (kind.run cfg) := by
  rw [MigrationType.run_eq]
  refine .tryCatch (minded_body kind) fun e => ?_
  exact .bind (minded_fail _) fun _ => .bind minded_runRollbacks fun _ => .pure _

theorem run_minds (kind : MigrationType) (cfg : Settings) (ctx : MigrationContext)
    (hfresh : ctx.Fresh) (O : World) :
    Respects (Call.Minds cfg ctx) (kind.migrate cfg ctx O).trace :=
  (minded_run kind).run hfresh.minding O

/-! ### Two runs -/

/-- What calls are about, the rows of the migrations apart. -/
inductive Asset
  | guest (vmId : String)
  | volume (volumeId : String)
  | rbdImage (pool image : String)
  | route (pfx : String)

def Call.assets : Call → List Asset
  | .getVm v => [.guest v]
  | .stopVm v => [.guest v]
  | .deleteVm v => [.guest v]
  | .doMigrate v _ _ => [.guest v]
  | .jobInfo _ v => [.guest v]
  | .abortJob _ v => [.guest v]
  | .getVolume volumeId => [.volume volumeId]
  | .preflightCheck pool image _ => [.rbdImage pool image]
  | .getMirrorStatus pool image => [.rbdImage pool image]
  | .waitForSync pool image _ _ => [.rbdImage pool image]
  | .demote pool image => [.rbdImage pool image]
  | .promote pool image _ => [.rbdImage pool image]
  | .promoteRBDImage _ pool image => [.rbdImage pool image]
  | .createVolumeFromRbd pool image _ _ => [.rbdImage pool image]
  | .announce route => [.route route.pfx]
  | .withdraw pfx => [.route pfx]
  | .announceIP _ pfx => [.route pfx]
  | .withdrawIP _ pfx => [.route pfx]
  | .waitConvergence pfx => [.route pfx]
  | .transition _ _ _ => []
  | .fail _ => []
  | .monitorPolls => []

/-- The asset belongs to the VM of the engine, as far as Nova has told. -/
def Asset.Own (cfg : Settings) (ctx : MigrationContext) (h : Trace) : Asset → Prop
  | .guest v => v = ctx.vmId
  | .volume v => v ∈ attached h
  | .rbdImage pool image => pool = cfg.pool ∧ image ∈ ownImages h
  | .route pfx => pfx ∈ ownPrefixes h

/-- Two VMs with no volume and no address in common. -/
structure Separate (ctx ctx' : MigrationContext) (h h' : Trace) : Prop where
  guests : ctx.vmId ≠ ctx'.vmId
  volumes : ∀ v ∈ attached h, v ∉ attached h'
  addresses : ∀ ip ∈ reported h, ip ∉ reported h'

theorem Call.Minds.own {c : Call} (hc : c.Minds cfg ctx h) : ∀ x ∈ c.assets, x.Own cfg ctx h := by
  intro x hx
  cases c with
  | doMigrate v sourceHost destHost =>
    rw [List.mem_singleton.1 hx]
    exact hc.1
  | promoteRBDImage peer pool image =>
    rw [List.mem_singleton.1 hx]
    exact hc.2
  | transition task state progress => cases hx
  | fail error => cases hx
  | monitorPolls => cases hx
  | _ =>
    rw [List.mem_singleton.1 hx]
    exact hc

theorem Separate.not_own {ctx' : MigrationContext} {h' : Trace} (hs : Separate ctx ctx' h h')
    {x : Asset} (hx : x.Own cfg ctx h) : ¬ x.Own cfg ctx' h' := by
  intro hx'
  cases x with
  | guest v => exact hs.guests (hx.symm.trans hx')
  | volume v => exact hs.volumes v hx hx'
  | rbdImage pool image =>
    obtain ⟨v, hv, rfl⟩ := List.mem_map.1 hx.2
    exact hs.volumes v hv ((List.mem_map_of_injective imageName_injective).1 hx'.2)
  | route pfx =>
    obtain ⟨ip, hip, rfl⟩ := List.mem_map.1 hx
    exact hs.addresses ip hip ((List.mem_map_of_injective hostPrefix_injective).1 hx')

/-- Whatever fails, a run names only its own VM, the volumes that Nova attaches to it and the
addresses that Nova gives it, and nothing that a run for a separate VM names. -/
theorem run_minds_own (kind : MigrationType) (cfg : Settings) (ctx : MigrationContext)
    (hfresh : ctx.Fresh) (O : World) :
    Respects (Call.Minds cfg ctx) (kind.migrate cfg ctx O).trace ∧
      ∀ (kind' : MigrationType) (ctx' : MigrationContext) (O' : World), ctx'.Fresh →
        Separate ctx ctx' (kind.migrate cfg ctx O).trace (kind'.migrate cfg ctx' O').trace →
        ∀ e ∈ (kind.migrate cfg ctx O).trace, ∀ e' ∈ (kind'.migrate cfg ctx' O').trace,
          ∀ x ∈ e.call.assets, x ∉ e'.call.assets := by
  have hminds := run_minds kind cfg ctx hfresh O
  refine ⟨hminds, ?_⟩
  intro kind' ctx' O' hfresh' hseparate e he e' he' x hx hx'
  have hown := (minds_of_mem hminds he).own x hx
  have hown' := (minds_of_mem (run_minds kind' cfg ctx' hfresh' O') he').own x hx'
  exact hseparate.not_own hown hown'

/-- A VM that has nothing in common with that of the other worlds. -/
def elsewhere : VMDetails :=
  { twoVolumes with ips := ["10.0.0.6"], volumeIds := ["c"] }

theorem connected_minds_own :
    Respects (Call.Minds settings (connected .live))
        (MigrationType.live.migrate settings (connected .live) (cooperative twoVolumes)).trace ∧
      ∀ e ∈ (MigrationType.live.migrate settings (connected .live)
          (cooperative twoVolumes)).trace,
        ∀ e' ∈ (MigrationType.cold.migrate settings { connected .cold with vmId := "vm-2" }
          (cooperative elsewhere)).trace, ∀ x ∈ e.call.assets, x ∉ e'.call.assets := by
  obtain ⟨hminds, hapart⟩ := run_minds_own .live settings (connected .live) (by decide)
    (cooperative twoVolumes)
  refine ⟨hminds, hapart .cold { connected .cold with vmId := "vm-2" } (cooperative elsewhere)
    (by decide) ⟨by decide, ?_, ?_⟩⟩
  · decide +kernel
  · decide +kernel

end NovaFederation
