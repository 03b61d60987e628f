import NovaFederation.Interleaving
import NovaFederation.Ownership
import NovaFederation.Relocation
import NovaFederation.Routes
import NovaFederation.StorageSafety

/-!
# Many migrations at once

Any number of engines run beside each other, between any clusters. The clusters are known by
their ids here; `site` says which of them a migration calls its source and its destination, and
what each holds is a fold of the events of all engines. Two engines that Nova has told of different
VMs, volumes and addresses do not get into each other's way, so every result about the run of one
engine holds of it among others.
-/

namespace NovaFederation
open Coroutine History Ensemble
variable {I : Type} {cfg : Settings} {eff : Effects} {image : String} {e : CallEvent}

abbrev Holdings (K D : Type) := String → K → D

def Holdings.only {K : Type} (cluster : String) : Holdings K Bool :=
  fun cluster' _ => decide (cluster' = cluster)

section Holdings
variable {K D : Type} [DecidableEq K] {site : Side → String}

def Holdings.place (w : Holdings K D) (cluster : String) (key : K) (d : D) : Holdings K D :=
  fun cluster' key' => if cluster' = cluster ∧ key' = key then d else w cluster' key'

theorem Holdings.place_site (hsite : Function.Injective site) (w : Holdings K D) (side side' : Side)
    (key key' : K) (d : D) : w.place (site side) key d (site side') key' =
      if side' = side ∧ key' = key then d else w (site side') key' := by
  simp only [Holdings.place, hsite.eq_iff]

theorem Holdings.place_other {w : Holdings K D} {cluster cluster' : String} {key key' : K} {d : D}
    (hne : ¬ (cluster' = cluster ∧ key' = key)) :
    w.place cluster key d cluster' key' = w cluster' key' := if_neg hne

end Holdings

def diskAct (site : Side → String) (w : Holdings (String × String) Bool) (e : CallEvent) :
    Holdings (String × String) Bool :=
  match e with
  | ⟨.demote pool image, .ok _⟩ => w.place (site .source) (pool, image) false
  | ⟨.promote pool image _, .ok _⟩ => w.place (site .source) (pool, image) true
  | ⟨.promoteRBDImage peer pool image, .ok response⟩ =>
    if response.success then w.place (site peer) (pool, image) true else w
  | _ => w

def guestAct (site : Side → String) (w : Holdings String Bool) (e : CallEvent) :
    Holdings String Bool :=
  match e with
  | ⟨.deleteVm vmId, .ok _⟩ => w.place (site .source) vmId false
  | ⟨.doMigrate vmId _ _, .ok job⟩ =>
    if job.migrated then (w.place (site .source) vmId false).place (site .dest) vmId true else w
  | _ => w

def routeAct (eff : Effects) (site : Side → String) (w : Holdings String (Option (Option String)))
    (e : CallEvent) : Holdings String (Option (Option String)) :=
  if eff.took e then
    match e.call with
    | .announce route => w.place (site .dest) route.pfx (some route.nextHop)
    | .withdraw pfx => w.place (site .dest) pfx none
    | .announceIP peer pfx => w.place (site peer) pfx (some (some ""))
    | .withdrawIP peer pfx => w.place (site peer) pfx none
    | _ => w
  else w

/-- Migrations that are run at once, each by an engine without findings. -/
structure Fleet (I : Type) where
  kind : I → MigrationType
  ctx : I → MigrationContext
  fresh : ∀ i, (ctx i).Fresh

abbrev FleetPast (I : Type) := List (I × CallEvent)

/-! ### One event -/

section Event
variable {site : Side → String} {ctx : MigrationContext} {vmId pfx : String} {h : Trace}

theorem diskAct_own (hsite : Function.Injective site) {w : Holdings (String × String) Bool}
    {d : Primaries} {pool : String}
    (hw : ∀ side, w (site side) (pool, image) = d side pool image) (e : CallEvent) (side : Side) :
    diskAct site w e (site side) (pool, image) = d.apply e side pool image := by
  obtain ⟨c, reply⟩ := e
  cases c with
  | demote p i =>
    cases reply with
    | error x => exact hw side
    | ok v => simp [diskAct, Primaries.apply, Primaries.set, Holdings.place_site hsite, hw]
  | promote p i force =>
    cases reply with
    | error x => exact hw side
    | ok v => simp [diskAct, Primaries.apply, Primaries.set, Holdings.place_site hsite, hw]
  | promoteRBDImage peer p i =>
    cases reply with
    | error x => exact hw side
    | ok response =>
      by_cases hr : response.success = true
      · simp [diskAct, Primaries.apply, Primaries.set, Holdings.place_site hsite, hw, hr]
      · simp [diskAct, Primaries.apply, hw, hr]
  | _ => exact hw side

theorem diskAct_other (hc : e.call.Minds cfg ctx h) (hi : image ∉ ownImages h)
    (w : Holdings (String × String) Bool) (cluster : String) :
    diskAct site w e cluster (cfg.pool, image) = w cluster (cfg.pool, image) := by
  have hne : ∀ {cluster' pool i : String}, i ∈ ownImages h →
      ¬ (cluster = cluster' ∧ (cfg.pool, image) = (pool, i)) := by
    rintro _ _ i him ⟨-, heq⟩
    rw [(Prod.mk.inj heq).2] at hi
    exact hi him
  unfold diskAct
  split
  · exact Holdings.place_other (hne hc.2)
  · exact Holdings.place_other (hne hc.2)
  · split_ifs
    · exact Holdings.place_other (hne hc.2.2)
    · rfl
  · rfl

theorem diskAct_elsewhere {cluster : String} (hc : ∀ side, cluster ≠ site side)
    (w : Holdings (String × String) Bool) (key : String × String) :
    diskAct site w e cluster key = w cluster key := by
  unfold diskAct
  split
  · exact Holdings.place_other fun hq => hc _ hq.1
  · exact Holdings.place_other fun hq => hc _ hq.1
  · split_ifs
    · exact Holdings.place_other fun hq => hc _ hq.1
    · rfl
  · rfl

theorem guestAct_elsewhere {cluster : String} (hc : ∀ side, cluster ≠ site side)
    (w : Holdings String Bool) (key : String) :
    guestAct site w e cluster key = w cluster key := by
  unfold guestAct
  split
  · exact Holdings.place_other fun hq => hc _ hq.1
  · split_ifs
    · rw [Holdings.place_other fun hq => hc _ hq.1, Holdings.place_other fun hq => hc _ hq.1]
    · rfl
  · rfl

theorem guestAct_own (hsite : Function.Injective site) {w : Holdings String Bool} {d : Placement}
    (hw : ∀ side, w (site side) ctx.vmId = d side) (hc : e.call.Minds cfg ctx h) (side : Side) :
    guestAct site w e (site side) ctx.vmId = d.apply e side := by
  obtain ⟨c, reply⟩ := e
  cases c with
  | deleteVm v =>
    obtain rfl : v = ctx.vmId := hc
    cases reply with
    | error x => exact hw side
    | ok _ => cases side <;> simp [guestAct, Placement.apply, Holdings.place_site hsite, hw]
  | doMigrate v sourceHost destHost =>
    obtain rfl : v = ctx.vmId := hc.1
    cases reply with
    | error x => exact hw side
    | ok job =>
      by_cases hj : job.migrated = true
      · cases side <;>
          simp [guestAct, Placement.apply, Placement.only, Holdings.place_site hsite, hj]
      · simp [guestAct, Placement.apply, hw, hj]
  | _ => exact hw side

theorem guestAct_other (hc : e.call.Minds cfg ctx h) (hne : ctx.vmId ≠ vmId)
    (w : Holdings String Bool) (cluster : String) :
    guestAct site w e cluster vmId = w cluster vmId := by
  have hno : ∀ {cluster' v : String}, v = ctx.vmId → ¬ (cluster = cluster' ∧ vmId = v) := by
    rintro _ _ rfl ⟨-, heq⟩
    exact hne heq.symm
  unfold guestAct
  split
  · exact Holdings.place_other (hno hc)
  · split_ifs
    · rw [Holdings.place_other (hno hc.1), Holdings.place_other (hno hc.1)]
    · rfl
  · rfl

theorem routeAct_own (hsite : Function.Injective site)
    {w : Holdings String (Option (Option String))} {d : Routes}
    (hw : ∀ side, w (site side) pfx = d side pfx) (e : CallEvent) (side : Side) :
    routeAct eff site w e (site side) pfx =
      (if eff.took e then d.act e.call else d) side pfx := by
  unfold routeAct
  split_ifs with ht
  · cases e.call with
    | announce route => simp [Routes.act, Routes.set, Holdings.place_site hsite, hw]
    | withdraw p => simp [Routes.act, Routes.set, Holdings.place_site hsite, hw]
    | announceIP peer p => simp [Routes.act, Routes.set, Holdings.place_site hsite, hw]
    | withdrawIP peer p => simp [Routes.act, Routes.set, Holdings.place_site hsite, hw]
    | _ => exact hw side
  · exact hw side

theorem routeAct_other (hc : e.call.Minds cfg ctx h) (hp : pfx ∉ ownPrefixes h)
    (w : Holdings String (Option (Option String))) (cluster : String) :
    routeAct eff site w e cluster pfx = w cluster pfx := by
  have hne : ∀ {cluster' p : String}, p ∈ ownPrefixes h → ¬ (cluster = cluster' ∧ pfx = p) := by
    rintro _ _ hpm ⟨-, rfl⟩
    exact hp hpm
  unfold routeAct
  split_ifs
  · generalize e.call = c at hc
    cases c with
    | announce route => exact Holdings.place_other (hne hc)
    | withdraw p => exact Holdings.place_other (hne hc)
    | announceIP peer p => exact Holdings.place_other (hne hc)
    | withdrawIP peer p => exact Holdings.place_other (hne hc)
    | _ => rfl
  · rfl

end Event

namespace Fleet
variable (site : I → Side → String)

def disks (w : Holdings (String × String) Bool) (past : FleetPast I) :
    Holdings (String × String) Bool :=
  shared (fun i => diskAct (site i)) w past

def guests (w : Holdings String Bool) (past : FleetPast I) : Holdings String Bool :=
  shared (fun i => guestAct (site i)) w past

def routed (eff : Effects) (w : Holdings String (Option (Option String))) (past : FleetPast I) :
    Holdings String (Option (Option String)) :=
  shared (fun i => routeAct eff (site i)) w past

variable [DecidableEq I]

/-- The engines after some of their calls have been answered. -/
def run (F : Fleet I) (cfg : Settings) (acts : List (I × Answers PyException Call Call.Reply)) :
    Ensemble I EngineState PyException Call Call.Reply Bool :=
  (Ensemble.start (fun i => (F.kind i).run cfg) fun i => EngineState.init (F.ctx i)).steps acts

abbrev past (F : Fleet I) (cfg : Settings)
    (acts : List (I × Answers PyException Call Call.Reply)) : FleetPast I :=
  (F.run cfg acts).past

variable {F : Fleet I} {acts : List (I × Answers PyException Call Call.Reply)} {i j : I}

/-- What an engine has done among others is the beginning of a run of its own, in which nothing
succeeds any more; once it has ended it is that run. -/
theorem own_prefix (F : Fleet I) (cfg : Settings)
    (acts : List (I × Answers PyException Call Call.Reply)) (i : I) :
    ∃ O t, ((F.kind i).migrate cfg (F.ctx i) O).trace = own i (F.past cfg acts) ++ t ∧
      (∀ e ∈ t, e.reply.isOk = false) ∧
      ∀ s r, (F.run cfg acts).tasks i = (s, .done r) →
        (F.kind i).migrate cfg (F.ctx i) O = ⟨r, s, own i (F.past cfg acts)⟩ := by
  obtain ⟨O, t, htrace, ht, hend⟩ := run_of_own (fun i => (F.kind i).run cfg)
    (fun i => EngineState.init (F.ctx i)) acts i (⟨.other, ""⟩ : PyException)
  refine ⟨O, t, htrace, fun e he => ?_, fun s r hdone => ?_⟩
  · rw [ht e he]
    rfl
  · rw [MigrationType.migrate, hend s r hdone]
    rfl

theorem own_minds (F : Fleet I) (cfg : Settings)
    (acts : List (I × Answers PyException Call Call.Reply)) (i : I) :
    Respects (Call.Minds cfg (F.ctx i)) (own i (F.past cfg acts)) := by
  obtain ⟨O, t, htrace, -, -⟩ := own_prefix F cfg acts i
  exact (run_minds (F.kind i) cfg (F.ctx i) (F.fresh i) O).restrict ⟨t, htrace.symm⟩

theorem own_law (F : Fleet I) (cfg : Settings)
    (acts : List (I × Answers PyException Call Call.Reply)) (i : I) :
    ∃ p, Respects (Law (F.kind i) cfg p) (own i (F.past cfg acts)) := by
  obtain ⟨O, t, htrace, -, -⟩ := own_prefix F cfg acts i
  exact ⟨_, (law_run (F.kind i) cfg (F.ctx i) O).restrict ⟨t, htrace.symm⟩⟩

theorem minds_of_event {e : CallEvent} (he : (i, e) ∈ F.past cfg acts) :
    e.call.Minds cfg (F.ctx i) (own i (F.past cfg acts)) :=
  minds_of_mem (own_minds F cfg acts i) (mem_own.2 he)

/-! ### No engine gets in another's way -/

/-- The image is attached to the VM of no other engine. -/
def OwnsImage (F : Fleet I) (cfg : Settings)
    (acts : List (I × Answers PyException Call Call.Reply)) (i : I) (image : String) : Prop :=
  ∀ j ≠ i, image ∉ ownImages (own j (F.past cfg acts))

def OwnsPrefix (F : Fleet I) (cfg : Settings)
    (acts : List (I × Answers PyException Call Call.Reply)) (i : I) (pfx : String) : Prop :=
  ∀ j ≠ i, pfx ∉ ownPrefixes (own j (F.past cfg acts))

def OwnsGuest (F : Fleet I) (i : I) : Prop := ∀ j ≠ i, (F.ctx j).vmId ≠ (F.ctx i).vmId

section Own
variable {site : I → Side → String} {pfx : String}

theorem disks_eq (hsite : Function.Injective (site i)) (howns : F.OwnsImage cfg acts i image)
    {w : Holdings (String × String) Bool}
    (hw : ∀ side, w (site i side) (cfg.pool, image) = Primaries.initial side cfg.pool image)
    (side : Side) : disks site w (F.past cfg acts) (site i side) (cfg.pool, image) =
      primaries (own i (F.past cfg acts)) side cfg.pool image := by
  refine shared_simulates (fun i => diskAct (site i))
    (fun w (d : Primaries) => ∀ side, w (site i side) (cfg.pool, image) = d side cfg.pool image)
    Primaries.apply (fun e _ w d hR => diskAct_own hsite hR e) (fun j e he hj w d hR side => ?_)
    hw side
  exact (diskAct_other (minds_of_event he) (howns j hj) w _).trans (hR side)

theorem guests_eq (hsite : Function.Injective (site i)) (howns : F.OwnsGuest i)
    {w : Holdings String Bool}
    (hw : ∀ side, w (site i side) (F.ctx i).vmId = Placement.only .source side) (side : Side) :
    guests site w (F.past cfg acts) (site i side) (F.ctx i).vmId =
      placement (own i (F.past cfg acts)) side := by
  refine shared_simulates (fun i => guestAct (site i))
    (fun w (d : Placement) => ∀ side, w (site i side) (F.ctx i).vmId = d side) Placement.apply
    (fun e he w d hR => guestAct_own hsite hR (minds_of_event he))
    (fun j e he hj w d hR side => ?_) hw side
  exact (guestAct_other (minds_of_event he) (howns j hj) w _).trans (hR side)

theorem routed_eq (hsite : Function.Injective (site i)) (howns : F.OwnsPrefix cfg acts i pfx)
    {w : Holdings String (Option (Option String))}
    (hw : ∀ side, w (site i side) pfx = Routes.initial side pfx) (side : Side) :
    routed site eff w (F.past cfg acts) (site i side) pfx =
      routes eff (own i (F.past cfg acts)) side pfx := by
  refine shared_simulates (fun i => routeAct eff (site i))
    (fun w (d : Routes) => ∀ side, w (site i side) pfx = d side pfx)
    (fun d e => if eff.took e then d.act e.call else d)
    (fun e _ w d hR => routeAct_own hsite hR e) (fun j e he hj w d hR side => ?_) hw side
  exact (routeAct_other (minds_of_event he) (howns j hj) w _).trans (hR side)

theorem disks_elsewhere (howns : F.OwnsImage cfg acts i image)
    {w : Holdings (String × String) Bool} {cluster : String} (hc : ∀ side, cluster ≠ site i side) :
    disks site w (F.past cfg acts) cluster (cfg.pool, image) = w cluster (cfg.pool, image) := by
  refine shared_keeps (fun i => diskAct (site i))
    (fun w' => w' cluster (cfg.pool, image) = w cluster (cfg.pool, image))
    (fun j e he w' hw' => ?_) rfl
  by_cases hj : j = i
  · subst hj
    exact (diskAct_elsewhere hc w' _).trans hw'
  · exact (diskAct_other (minds_of_event he) (howns j hj) w' _).trans hw'

theorem guests_elsewhere (howns : F.OwnsGuest i) {w : Holdings String Bool} {cluster : String}
    (hc : ∀ side, cluster ≠ site i side) :
    guests site w (F.past cfg acts) cluster (F.ctx i).vmId = w cluster (F.ctx i).vmId := by
  refine shared_keeps (fun i => guestAct (site i))
    (fun w' => w' cluster (F.ctx i).vmId = w cluster (F.ctx i).vmId)
    (fun j e he w' hw' => ?_) rfl
  by_cases hj : j = i
  · subst hj
    exact (guestAct_elsewhere hc w' _).trans hw'
  · exact (guestAct_other (minds_of_event he) (howns j hj) w' _).trans hw'

/-- A migration among others is the beginning of a migration alone: the clusters hold of its VM,
its images and its addresses what its own calls have made of them. -/
theorem isolated (F : Fleet I) (cfg : Settings) (eff : Effects) (site : I → Side → String)
    (acts : List (I × Answers PyException Call Call.Reply)) (i : I) (image pfx : String)
    (hsite : Function.Injective (site i)) (himage : F.OwnsImage cfg acts i image)
    (hguest : F.OwnsGuest i) (hpfx : F.OwnsPrefix cfg acts i pfx)
    (disks₀ : Holdings (String × String) Bool) (guests₀ : Holdings String Bool)
    (routed₀ : Holdings String (Option (Option String)))
    (hdisks : ∀ side, disks₀ (site i side) (cfg.pool, image) =
      Primaries.initial side cfg.pool image)
    (hguests : ∀ side, guests₀ (site i side) (F.ctx i).vmId = Placement.only .source side)
    (hrouted : ∀ side, routed₀ (site i side) pfx = Routes.initial side pfx) :
    ∃ O h t, h = own i (F.past cfg acts) ∧
      ((F.kind i).migrate cfg (F.ctx i) O).trace = h ++ t ∧ (∀ e ∈ t, e.reply.isOk = false) ∧
      (∀ s r, (F.run cfg acts).tasks i = (s, .done r) →
        (F.kind i).migrate cfg (F.ctx i) O = ⟨r, s, h⟩) ∧ ∀ side,
        disks site disks₀ (F.past cfg acts) (site i side) (cfg.pool, image) =
          primaries h side cfg.pool image ∧
        guests site guests₀ (F.past cfg acts) (site i side) (F.ctx i).vmId = placement h side ∧
        routed site eff routed₀ (F.past cfg acts) (site i side) pfx = routes eff h side pfx := by
  obtain ⟨O, t, htrace, ht, hend⟩ := own_prefix F cfg acts i
  exact ⟨O, _, t, rfl, htrace, ht, hend, fun side => ⟨disks_eq hsite himage hdisks side,
    guests_eq hsite hguest hguests side, routed_eq hsite hpfx hrouted side⟩⟩

def twoMigrations : Fleet Bool where
  kind live := if live then .live else .cold
  ctx live := { connected (if live then .live else .cold) with
    vmId := if live then "vm-1" else "vm-2" }
  fresh live := by cases live <;> decide

def fromAToB (_ : Bool) : Side → String
  | .source => "cluster-a"
  | .dest => "cluster-b"

theorem fromAToB_injective (live : Bool) : Function.Injective (fromAToB live) := by
  have hne : fromAToB live .source ≠ fromAToB live .dest :=
    show "cluster-a" ≠ "cluster-b" by decide
  intro a b hab
  cases a <;> cases b
  · rfl
  · exact absurd hab hne
  · exact absurd hab.symm hne
  · rfl

def announcedByA : Holdings String (Option (Option String)) :=
  fun cluster _ => if cluster = "cluster-a" then some (some "") else none

def oneVolume : VMDetails := ⟨"ACTIVE", "compute-1", ["10.0.0.6"], [], ["c"]⟩

def byTurns (n : ℕ) : List (Bool × Answers PyException Call Call.Reply) :=
  (List.replicate n [true, false]).flatten.map fun live =>
    (live, cooperative (if live then twoVolumes else oneVolume) [])

theorem twoMigrations_ownsImage :
    twoMigrations.OwnsImage settings (byTurns 22) true "volume-a" := by
  intro live hne
  cases live
  · decide
  · exact absurd rfl hne

theorem twoMigrations_ownsPrefix :
    twoMigrations.OwnsPrefix settings (byTurns 22) true "10.0.0.5/32" := by
  intro live hne
  cases live
  · decide
  · exact absurd rfl hne

theorem twoMigrations_ownsGuest : twoMigrations.OwnsGuest true := by
  intro live hne
  cases live
  · decide
  · exact absurd rfl hne

theorem isolated_twoMigrations :
    disks fromAToB (.only "cluster-a") (twoMigrations.past settings (byTurns 22)) "cluster-b"
        ("rbd", "volume-a") = true ∧
      guests fromAToB (.only "cluster-a") (twoMigrations.past settings (byTurns 22)) "cluster-b"
        "vm-1" = true ∧
      routed fromAToB .atomic announcedByA (twoMigrations.past settings (byTurns 22)) "cluster-a"
        "10.0.0.5/32" = none := by
  obtain ⟨O, h, t, rfl, -, -, -, hsame⟩ := isolated twoMigrations settings .atomic fromAToB
    (byTurns 22) true "volume-a" "10.0.0.5/32" (fromAToB_injective true) twoMigrations_ownsImage
    twoMigrations_ownsGuest twoMigrations_ownsPrefix (.only "cluster-a") (.only "cluster-a")
    announcedByA (by intro side; cases side <;> rfl) (by intro side; cases side <;> rfl)
    (by intro side; cases side <;> rfl)
  refine ⟨(hsame .dest).1.trans ?_, (hsame .dest).2.1.trans ?_, (hsame .source).2.2.trans ?_⟩
  · decide
  · decide
  · decide

/-- An image is primary on two clusters only once a handler has taken it back from the cluster it
was given to. -/
theorem both_primary_iff {kind : MigrationType} {p : Plan} {h : Trace}
    (hr : Respects (Law kind cfg p) h) :
    primaries h .source cfg.pool image = true ∧ primaries h .dest cfg.pool image = true ↔
      Has (PeerPromoted cfg .dest image) h ∧ Has (ForcePromoted cfg image) h := by
  rw [dest_primary_iff]
  constructor
  · rintro ⟨hsrc, hd⟩
    refine ⟨hd, ?_⟩
    obtain ⟨a, d, b, hab, hdp, -⟩ := hd.first
    obtain ⟨hc, hdem⟩ := demoted_before_dest_promotion hr hab hdp
    obtain ⟨m, hm, hdm⟩ : Has (Demoted cfg image) h := by
      rw [hab]
      exact hdem.append _
    obtain ⟨u, v, huv⟩ := List.append_of_mem hm
    by_contra hno
    have hns : ¬ Has (SourcePromoted cfg image) v := by
      intro hs
      apply hno (source_promotion_forced hr hc _)
      rw [huv, ← List.singleton_append, ← List.append_assoc]
      exact has_append.2 (.inr hs)
    rw [huv, source_demoted_of_unpromoted hdm hns] at hsrc
    cases hsrc
  · rintro ⟨hd, f, hf, rfl⟩
    obtain ⟨pre, post, rfl⟩ := List.append_of_mem hf
    refine ⟨source_primary_of_promoted (.inl ⟨true, rfl⟩) ?_, hd⟩
    rintro ⟨m, hm, rfl⟩
    -- nothing is demoted once a handler has been called
    obtain ⟨mid, post', rfl⟩ := List.append_of_mem hm
    rw [← List.cons_append, ← List.append_assoc] at hr
    have hclean := (forward_clean hr rfl rfl).1
    exact absurd (hclean ⟨.promote cfg.pool image true, .ok ()⟩ (by simp)).1 Bool.false_ne_true

/-- Of the clusters an image is on at most one is primary at any moment, unless the engine that
migrates it has taken it back. -/
theorem one_primary (F : Fleet I) (cfg : Settings) (site : I → Side → String)
    (acts : List (I × Answers PyException Call Call.Reply)) (i : I) (image : String)
    (hsite : Function.Injective (site i)) (himage : F.OwnsImage cfg acts i image)
    (disks₀ : Holdings (String × String) Bool) (hdisks : ∀ cluster,
      disks₀ cluster (cfg.pool, image) = decide (cluster = site i .source)) :
    (∀ a b, disks site disks₀ (F.past cfg acts) a (cfg.pool, image) = true →
        disks site disks₀ (F.past cfg acts) b (cfg.pool, image) = true → a = b) ↔
      ¬ (Has (PeerPromoted cfg .dest image) (own i (F.past cfg acts)) ∧
        Has (ForcePromoted cfg image) (own i (F.past cfg acts))) := by
  obtain ⟨p, hr⟩ := own_law F cfg acts i
  have hstart : ∀ side, disks₀ (site i side) (cfg.pool, image) =
      Primaries.initial side cfg.pool image := by
    exact fun side => (hdisks _).trans (decide_eq_decide.2 hsite.eq_iff)
  have hown := disks_eq hsite himage hstart
  rw [← both_primary_iff hr, ← hown, ← hown]
  constructor
  · rintro hone ⟨hsrc, hdst⟩
    cases hsite (hone _ _ hsrc hdst)
  · intro hno a b ha hb
    have hside : ∀ cluster, disks site disks₀ (F.past cfg acts) cluster (cfg.pool, image) = true →
        ∃ side, cluster = site i side := by
      intro cluster hc
      by_contra hne
      rw [disks_elsewhere himage fun side hq => hne ⟨side, hq⟩, hdisks, decide_eq_true_iff] at hc
      exact hne ⟨.source, hc⟩
    obtain ⟨sa, rfl⟩ := hside a ha
    obtain ⟨sb, rfl⟩ := hside b hb
    cases sa <;> cases sb
    · rfl
    · exact absurd ⟨ha, hb⟩ hno
    · exact absurd ⟨hb, ha⟩ hno
    · rfl

theorem one_primary_twoMigrations :
    ¬ (disks fromAToB (.only "cluster-a")
        (twoMigrations.past settings (byTurns 22)) "cluster-a" ("rbd", "volume-a") = true ∧
      disks fromAToB (.only "cluster-a")
        (twoMigrations.past settings (byTurns 22)) "cluster-b" ("rbd", "volume-a") = true) := by
  rintro ⟨ha, hb⟩
  have hone := (one_primary twoMigrations settings fromAToB (byTurns 22) true "volume-a"
    (fromAToB_injective true) twoMigrations_ownsImage (.only "cluster-a") fun _ => rfl).2
  have hforward : ∀ e ∈ own true (twoMigrations.past settings (byTurns 22)),
      e.call.isForward = true := by decide
  refine absurd (hone ?_ _ _ ha hb) (by decide)
  rintro ⟨-, f, hf, rfl⟩
  exact absurd (hforward _ hf) Bool.false_ne_true

/-- A VM that is migrated live is at every moment on one cluster, wherever the guest runs. -/
theorem one_guest (F : Fleet I) (cfg : Settings) (site : I → Side → String)
    (acts : List (I × Answers PyException Call Call.Reply)) (i : I) (hlive : F.kind i = .live)
    (hsite : Function.Injective (site i)) (hguest : F.OwnsGuest i)
    (guests₀ : Holdings String Bool)
    (hguests : ∀ cluster, guests₀ cluster (F.ctx i).vmId = decide (cluster = site i .source))
    (cluster : String) : guests site guests₀ (F.past cfg acts) cluster (F.ctx i).vmId =
      decide (cluster = site i (runningOn (own i (F.past cfg acts)))) := by
  obtain ⟨p, hr⟩ := own_law F cfg acts i
  rw [hlive] at hr
  have hstart : ∀ side, guests₀ (site i side) (F.ctx i).vmId = Placement.only .source side := by
    exact fun side => (hguests _).trans (decide_eq_decide.2 hsite.eq_iff)
  by_cases hc : ∃ side, cluster = site i side
  · obtain ⟨side, rfl⟩ := hc
    rw [guests_eq hsite hguest hstart, placement_live hr]
    exact decide_eq_decide.2 hsite.eq_iff.symm
  · have hne : ∀ side, cluster ≠ site i side := fun side hq => hc ⟨side, hq⟩
    rw [guests_elsewhere hguest hne, hguests, decide_eq_false (hne _), decide_eq_false (hne _)]

theorem one_guest_twoMigrations :
    guests fromAToB (.only "cluster-a")
      (twoMigrations.past settings (byTurns 22)) "cluster-b" "vm-1" = true :=
  (one_guest twoMigrations settings fromAToB (byTurns 22) true rfl (fromAToB_injective true)
    twoMigrations_ownsGuest _ (fun _ => rfl) "cluster-b").trans (by decide)

end Own

end Fleet

end NovaFederation
