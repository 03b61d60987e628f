import NovaFederation.PolicyPass
import NovaFederation.ClusterTable

/-!
# The rows that the scheduler queues

`QueueLaw` says what a pass has learned before it inserts a row: the two clusters are those of a
call that a policy makes, and the VM is the first active one that the scheduler's own client has
listed. That client is bound to the cluster of the master, and the snapshots are made of every
registered cluster.
-/

namespace NovaFederation
open Coroutine History

abbrev IntakeTrace := History PyException IntakeCall IntakeCall.Reply

def firstActive (vms : List ListedVM) : Option ListedVM :=
  (vms.filter (·.status == "ACTIVE")).head?

/-- `P` says which calls of `_trigger_rebalance` are due. -/
def QueueLaw (P : IntakeTrace → Rebalance → Prop) (pre : IntakeTrace) : IntakeCall → Prop
  | .insert row => ∃ r migrationId vms vm, P pre r ∧
      Has (· = ⟨.listVms, .ok vms⟩) pre ∧ firstActive vms = some vm ∧
      row = Scheduler.rebalanceRow migrationId vm r.source r.dest r.action
  | _ => True

/-- A snapshot was made from the latest metric that the database answered. -/
def Sampled (h : IntakeTrace) (cluster : Cluster) (snap : ClusterSnapshot) : Prop :=
  ∃ metric, Has (· = ⟨.latestMetric cluster.id, .ok metric⟩) h ∧
    snap = Scheduler.snapshot cluster metric

def Planned (eval : TriggerEval) (h : IntakeTrace) (r : Rebalance) : Prop :=
  ∃ clusters snapshots policies, ∃ policy ∈ policies,
    Has (· = ⟨.selectClusters, .ok clusters⟩) h ∧
    List.Forall₂ (Sampled h) clusters snapshots ∧
    Has (· = ⟨.selectPolicies, .ok policies⟩) h ∧ policy.enabled = true ∧
    r ∈ Scheduler.rebalances eval policy snapshots

namespace Scheduler
variable {P : IntakeTrace → Rebalance → Prop} {eval : TriggerEval} {policy : Policy}
  {snaps : List ClusterSnapshot} {tasks : List Execution} {h : IntakeTrace}

def Lawful (P : IntakeTrace → Rebalance → Prop) (h h' : IntakeTrace) : Prop :=
  h <+: h' ∧ Respects (QueueLaw P) h'

theorem Lawful.snoc {h' : IntakeTrace} (hl : Lawful P h h') {e : IntakeEvent}
    (he : QueueLaw P h' e.call) : Lawful P h (h' ++ [e]) :=
  ⟨hl.1.trans (List.prefix_append _ _), respects_snoc.2 ⟨hl.2, he⟩⟩

theorem wp_triggerRebalance {r : Rebalance} {h' : IntakeTrace}
    (hP : ∀ t, h <+: t → P t r) (hl : Lawful P h h') :
    wp (triggerRebalance r.source r.dest r.action) (fun _ _ t => Lawful P h t)
      (fun _ _ t => Lawful P h t) tasks h' := by
  rw [triggerRebalance, wp_bind, wp_perform]
  refine ⟨fun vms => ?_, fun _ => hl.snoc trivial⟩
  have hl₁ : Lawful P h (h' ++ [⟨.listVms, .ok vms⟩]) := hl.snoc trivial
  cases hvms : vms.filter (·.status == "ACTIVE") with
  | nil => exact hl₁
  | cons vm _ =>
    have hvm : firstActive vms = some vm := by rw [firstActive, hvms]; rfl
    dsimp only
    rw [wp_bind, wp_perform]
    refine ⟨fun migrationId => ?_, fun _ => hl₁.snoc trivial⟩
    have hl₂ : Lawful P h (h' ++ [⟨.listVms, .ok vms⟩] ++ [⟨.uuid4, .ok migrationId⟩]) :=
      hl₁.snoc trivial
    have hlisted : Has (· = (⟨.listVms, .ok vms⟩ : IntakeEvent))
        (h' ++ [⟨.listVms, .ok vms⟩] ++ [⟨.uuid4, .ok migrationId⟩]) :=
      ⟨_, by simp, rfl⟩
    have hdue : QueueLaw P (h' ++ [⟨.listVms, .ok vms⟩] ++ [⟨.uuid4, .ok migrationId⟩])
        (.insert (rebalanceRow migrationId vm r.source r.dest r.action)) :=
      ⟨r, migrationId, vms, vm, hP _ hl₂.1, hlisted, hvm, rfl⟩
    rw [wp_bind, wp_perform]
    exact ⟨fun _ => hl₂.snoc hdue, fun _ => hl₂.snoc hdue⟩

theorem wp_applyPolicy {h' : IntakeTrace}
    (hP : ∀ t, h <+: t → ∀ r ∈ rebalances eval policy snaps, P t r) (hl : Lawful P h h') :
    wp (applyPolicy eval policy snaps) (fun _ _ t => Lawful P h t) (fun _ _ t => Lawful P h t)
      tasks h' := by
  rw [applyPolicy_eq_with, applyPolicyWith_eq]
  refine wp_forM (fun _ _ t => Lawful P h t) _ ?_ hl
  intro done r rest tasks t hsplit ht
  have hr : r ∈ rebalances eval policy snaps := by simp [hsplit]
  rw [wp_bind]
  exact wp_triggerRebalance (fun t ht => hP t ht r hr) ht

theorem Sampled.extend {h' : IntakeTrace} {cluster : Cluster} {snap : ClusterSnapshot}
    (hs : Sampled h cluster snap) (hh : h <+: h') : Sampled h' cluster snap := by
  obtain ⟨metric, hm, rfl⟩ := hs
  exact ⟨metric, hm.extend hh, rfl⟩

theorem wp_snapshots (clusters : List Cluster) {h' : IntakeTrace} (hl : Lawful P h h') :
    wp (snapshots clusters)
      (fun snaps _ t => Lawful P h t ∧ h' <+: t ∧ List.Forall₂ (Sampled t) clusters snaps)
      (fun _ _ t => Lawful P h t) tasks h' := by
  induction clusters generalizing h' with
  | nil => exact ⟨hl, List.prefix_rfl, .nil⟩
  | cons cluster clusters ih =>
    rw [snapshots, wp_bind, wp_perform]
    refine ⟨fun metric => ?_, fun _ => hl.snoc trivial⟩
    have hl₁ : Lawful P h (h' ++ [⟨.latestMetric cluster.id, .ok metric⟩]) := hl.snoc trivial
    rw [wp_bind]
    apply wp_weaken (ih hl₁)
    rintro snaps _ t ⟨ht, hpre, hs⟩
    refine ⟨ht, (List.prefix_append _ _).trans hpre, .cons ?_ hs⟩
    have hm : Has (· = (⟨.latestMetric cluster.id, .ok metric⟩ : IntakeEvent))
        (h' ++ [⟨.latestMetric cluster.id, .ok metric⟩]) := ⟨_, by simp, rfl⟩
    exact ⟨metric, hm.extend hpre, rfl⟩

theorem wp_policies {policies : List Policy} (hl : Lawful P h h)
    (hP : ∀ t, h <+: t → ∀ policy ∈ policies, policy.enabled = true →
      ∀ r ∈ rebalances eval policy snaps, P t r) :
    wp (policies.forM fun policy => (do
        if policy.enabled then
          try
            applyPolicy eval policy snaps
          catch _ => pure ()
        else pure ()))
      (fun _ _ t => Lawful P h t) (fun _ _ t => Lawful P h t) tasks h := by
  refine wp_forM (fun _ _ t => Lawful P h t) policies ?_ hl
  intro done policy rest tasks t hsplit ht
  rw [wp_ite]
  refine ⟨fun henabled => ?_, fun _ => ht⟩
  rw [wp_tryCatch]
  refine wp_mono (wp_applyPolicy (fun u hu => hP u hu policy ?_ henabled) ht)
    (fun _ _ _ hu => hu) fun _ _ _ hu => hu
  simp [hsplit]

/-- Whatever the world answers, a pass queues only what an enabled policy asks for. -/
theorem wp_evaluate (eval : TriggerEval) (tasks : List Execution) :
    wp (evaluate eval) (fun _ _ t => Respects (QueueLaw (Planned eval)) t)
      (fun _ _ t => Respects (QueueLaw (Planned eval)) t) tasks [] := by
  have hnil : Lawful (Planned eval) [] [] := ⟨List.prefix_rfl, respects_nil _⟩
  rw [evaluate, collectSnapshots, wp_bind, wp_bind, wp_perform]
  refine ⟨fun clusters => ?_, fun _ => respects_snoc.2 ⟨hnil.2, trivial⟩⟩
  have hl₁ : Lawful (Planned eval) [] ([] ++ [⟨.selectClusters, .ok clusters⟩]) :=
    hnil.snoc trivial
  apply wp_mono (wp_snapshots clusters hl₁)
  · rintro snaps tasks t ⟨ht, hpre, hs⟩
    have hc : Has (· = (⟨.selectClusters, .ok clusters⟩ : IntakeEvent)) t :=
      Has.extend ⟨_, by simp, rfl⟩ hpre
    rw [wp_bind, loadPolicies, wp_perform]
    refine ⟨fun policies => ?_, fun _ => respects_snoc.2 ⟨ht.2, trivial⟩⟩
    have hl₂ : Lawful (Planned eval) (t ++ [⟨.selectPolicies, .ok policies⟩])
        (t ++ [⟨.selectPolicies, .ok policies⟩]) :=
      ⟨List.prefix_rfl, respects_snoc.2 ⟨ht.2, trivial⟩⟩
    have hp : Has (· = (⟨.selectPolicies, .ok policies⟩ : IntakeEvent))
        (t ++ [⟨.selectPolicies, .ok policies⟩]) := ⟨_, by simp, rfl⟩
    refine wp_mono (wp_policies hl₂ ?_) (fun _ _ _ hu => hu.2) fun _ _ _ hu => hu.2
    intro u hu policy hmem henabled r hr
    have hpre : t <+: u := (List.prefix_append _ _).trans hu
    exact ⟨clusters, snaps, policies, policy, hmem, hc.extend hpre,
      hs.imp fun _ _ hsampled => Sampled.extend hsampled hpre, hp.extend hu, henabled, hr⟩
  · exact fun _ _ _ ht => ht.2

end Scheduler

/-! ### The VMs of the source -/

def listing (vms : List ListedVM) (O : IntakeWorld) : IntakeWorld
  | h, .listVms => (O h .listVms).map fun _ => vms
  | h, c => O h c

def policyRows (inventory : String → List ListedVM) (own : String) (O : IntakeWorld)
    (eval : TriggerEval) (policy : Policy) (snaps : List ClusterSnapshot)
    (tasks : List Execution) : List Migration :=
  (run (listing (inventory own) O) (Scheduler.applyPolicy eval policy snaps)
    tasks).2.2.filterMap insertedRow

def Owned (inventory : String → List ListedVM) (clusterId vmId : String) : Prop :=
  ∃ vm ∈ inventory clusterId, vm.id = vmId ∧ vm.status = "ACTIVE"

instance (inventory : String → List ListedVM) (clusterId vmId : String) :
    Decidable (Owned inventory clusterId vmId) :=
  inferInstanceAs (Decidable (∃ vm ∈ inventory clusterId, _))

/-- Every row names an active VM of its source, whatever the database does. -/
def MovesOwned (inventory : String → List ListedVM) (own : String) (eval : TriggerEval)
    (policy : Policy) (snaps : List ClusterSnapshot) : Prop :=
  ∀ O tasks, ∀ row ∈ policyRows inventory own O eval policy snaps tasks,
    Owned inventory row.sourceClusterId row.vmId

section Inventory
variable {inventory : String → List ListedVM} {own : String} {eval : TriggerEval}
  {policy : Policy} {snaps : List ClusterSnapshot} {O : IntakeWorld} {tasks : List Execution}
  {row : Migration}

theorem insertedRow_eq_some {e : IntakeEvent} (he : insertedRow e = some row) :
    e = ⟨.insert row, .ok ()⟩ := by
  unfold insertedRow at he
  split at he
  · obtain rfl := Option.some.inj he
    rfl
  · cases he

theorem queued_of_mem {P : IntakeTrace → Rebalance → Prop} {h : IntakeTrace}
    (hl : Respects (QueueLaw P) h) (hrow : row ∈ h.filterMap insertedRow) :
    ∃ pre, pre <+: h ∧ QueueLaw P pre (.insert row) := by
  obtain ⟨e, he, hins⟩ := List.mem_filterMap.1 hrow
  obtain rfl := insertedRow_eq_some hins
  obtain ⟨pre, post, rfl⟩ := List.append_of_mem he
  exact ⟨pre, List.prefix_append _ _, hl.at_split rfl⟩

theorem reply_of_has {O : IntakeWorld} {p : Intake Unit} {pre : IntakeTrace} {e : IntakeEvent}
    (he : Has (· = e) pre) (hpre : pre <+: (run O p tasks).2.2) :
    ∃ t, e.reply = O t e.call := by
  obtain ⟨a, hmem, rfl⟩ := he
  obtain ⟨t, u, rfl⟩ := List.append_of_mem hmem
  refine ⟨t, reply_of_run ((?_ : t ++ [a] <+: t ++ a :: u).trans hpre)⟩
  exact ⟨u, by simp⟩

theorem listing_eq_ok {vms listed : List ListedVM} {h : IntakeTrace}
    (hl : listing vms O h .listVms = .ok listed) : listed = vms := by
  rw [listing] at hl
  cases hO : O h .listVms with
  | error x => rw [hO] at hl; cases hl
  | ok v => rw [hO] at hl; cases hl; rfl

/-- What a policy inserts: the first active VM of the client, as a VM of the source. -/
theorem policyRows_spec (hrow : row ∈ policyRows inventory own O eval policy snaps tasks) :
    ∃ r ∈ Scheduler.rebalances eval policy snaps, ∃ migrationId vm,
      firstActive (inventory own) = some vm ∧
        row = Scheduler.rebalanceRow migrationId vm r.source r.dest r.action := by
  let P : IntakeTrace → Rebalance → Prop := fun _ r => r ∈ Scheduler.rebalances eval policy snaps
  have hwp : wp (Scheduler.applyPolicy eval policy snaps) (fun _ _ t => Scheduler.Lawful P [] t)
      (fun _ _ t => Scheduler.Lawful P [] t) tasks [] :=
    Scheduler.wp_applyPolicy (fun _ _ r hr => hr) ⟨List.prefix_rfl, respects_nil _⟩
  have hlaw : Respects (QueueLaw P)
      (run (listing (inventory own) O) (Scheduler.applyPolicy eval policy snaps) tasks).2.2 :=
    (wp_exec_end hwp _).2
  obtain ⟨pre, hpre, r, migrationId, vms, vm, hr, hlisted, hvm, rfl⟩ := queued_of_mem hlaw hrow
  obtain ⟨t, ht⟩ := reply_of_has hlisted hpre
  rw [listing_eq_ok ht.symm] at hvm
  exact ⟨r, hr, migrationId, vm, hvm, rfl⟩

def answering : IntakeWorld := fun h => intakeAnswers (toString h.length)

theorem exec_rebalance_answering {vms : List ListedVM} {vm : ListedVM}
    (hvm : firstActive vms = some vm) (r : Rebalance) (tasks : List Execution) (h : IntakeTrace) :
    ∃ migrationId t, exec (listing vms answering)
        (Scheduler.triggerRebalance r.source r.dest r.action) tasks h =
      (.ok (some migrationId), tasks, h ++ t ++
        [⟨.insert (Scheduler.rebalanceRow migrationId vm r.source r.dest r.action), .ok ()⟩]) := by
  obtain ⟨rest, hrest⟩ : ∃ rest, vms.filter (·.status == "ACTIVE") = vm :: rest :=
    List.head?_eq_some_iff.1 hvm
  have hlist : listing vms answering h .listVms = .ok vms := rfl
  have huuid : listing vms answering (h ++ [⟨.listVms, .ok vms⟩]) .uuid4 =
      .ok (toString (h ++ [(⟨.listVms, .ok vms⟩ : IntakeEvent)]).length) := rfl
  generalize toString (h ++ [(⟨.listVms, .ok vms⟩ : IntakeEvent)]).length = migrationId at huuid
  have hinsert : listing vms answering
      (h ++ [⟨.listVms, .ok vms⟩] ++ [⟨.uuid4, .ok migrationId⟩])
      (.insert (Scheduler.rebalanceRow migrationId vm r.source r.dest r.action)) = .ok () := rfl
  refine ⟨migrationId, [⟨.listVms, .ok vms⟩, ⟨.uuid4, .ok migrationId⟩], ?_⟩
  unfold Scheduler.triggerRebalance
  rw [exec_bind, exec_perform_of_ok hlist]
  dsimp only
  rw [hrest, exec_bind, exec_perform_of_ok huuid]
  dsimp only
  rw [exec_bind, exec_perform_of_ok hinsert]
  simp only [List.append_assoc]
  rfl

theorem rows_answering {vms : List ListedVM} {vm : ListedVM} (hvm : firstActive vms = some vm)
    (rs : List Rebalance) (tasks : List Execution) (h : IntakeTrace) {r : Rebalance}
    (hr : r ∈ rs) :
    ∃ migrationId, Scheduler.rebalanceRow migrationId vm r.source r.dest r.action ∈
      (exec (listing vms answering) (rs.forM fun r => (do
        let _ ← Scheduler.triggerRebalance r.source r.dest r.action))
        tasks h).2.2.filterMap insertedRow := by
  induction rs generalizing h with
  | nil => cases hr
  | cons a rs ih =>
    obtain ⟨migrationId, t, hexec⟩ := exec_rebalance_answering hvm a tasks h
    have hcons : exec (listing vms answering) ((a :: rs).forM fun r => (do
        let _ ← Scheduler.triggerRebalance r.source r.dest r.action)) tasks h =
      exec (listing vms answering) (rs.forM fun r => (do
        let _ ← Scheduler.triggerRebalance r.source r.dest r.action)) tasks
        (h ++ t ++ [⟨.insert (Scheduler.rebalanceRow migrationId vm a.source a.dest a.action),
          .ok ()⟩]) := by
      change exec _ ((Scheduler.triggerRebalance a.source a.dest a.action >>= fun _ => pure ()) >>=
        fun _ => _) tasks h = _
      rw [exec_bind, exec_bind, hexec]
      rfl
    rw [hcons]
    rcases List.mem_cons.1 hr with rfl | hr
    · have hlast : (⟨.insert (Scheduler.rebalanceRow migrationId vm r.source r.dest r.action),
          .ok ()⟩ : IntakeEvent) ∈ h ++ t ++ [⟨.insert (Scheduler.rebalanceRow migrationId vm
            r.source r.dest r.action), .ok ()⟩] := by simp
      exact ⟨migrationId, List.mem_filterMap.2 ⟨_, (exec_extends _ _ _ _).subset hlast, rfl⟩⟩
    · exact ih _ hr

/-- The master's client lists what a row has to name only if the source has it too. -/
theorem moves_owned_iff (inventory : String → List ListedVM) (own : String) (eval : TriggerEval)
    (policy : Policy) (snaps : List ClusterSnapshot) :
    MovesOwned inventory own eval policy snaps ↔
      ((∃ s ∈ snaps, policy.violates eval s = false) →
        ∀ s ∈ snaps, policy.violates eval s = true →
          ∀ vm ∈ firstActive (inventory own), Owned inventory s.clusterId vm.id) := by
  constructor
  · intro hall hspare s hs hv vm hvm
    have hmem : s ∈ (Scheduler.rebalances eval policy snaps).map Rebalance.source := by
      rw [Scheduler.sources_rebalances, if_pos hspare]
      exact List.mem_filter.2 ⟨hs, hv⟩
    obtain ⟨r, hr, rfl⟩ := List.mem_map.1 hmem
    obtain ⟨migrationId, hrow⟩ := rows_answering hvm _ [] [] hr
    apply hall answering [] (Scheduler.rebalanceRow migrationId vm r.source r.dest r.action)
    rw [policyRows, Scheduler.applyPolicy_eq_with, Scheduler.applyPolicyWith_eq]
    exact hrow
  · intro hcond O tasks row hrow
    obtain ⟨r, hr, migrationId, vm, hvm, rfl⟩ := policyRows_spec hrow
    obtain ⟨hs, hv, hbest, -⟩ := Scheduler.mem_rebalances hr
    exact hcond ⟨r.dest, hbest.spared⟩ r.source hs hv vm hvm

/-- The cluster `b` is overloaded, and the VM that is moved from it runs on the master `a`. -/
theorem not_moves_owned :
    ¬ MovesOwned (fun clusterId => if clusterId = "a" then [⟨"vm-a", "web", "ACTIVE"⟩]
        else [⟨"vm-b", "db", "ACTIVE"⟩]) "a" cpuAbove80 Scheduler.relieveCpu
      [⟨"a", "fra", "", 10, 0, 0, 1⟩, ⟨"b", "ams", "", 90, 0, 0, 1⟩] := by
  intro hall
  have hrow := hall answering []
  revert hrow
  decide +kernel

end Inventory

/-! ### The destination -/

/-- The queries of a pass are answered from the tables, unless they raise. -/
def tabled (clusters : List ClusterRow) (metrics : List MetricRow) (O : IntakeWorld) : IntakeWorld
  | h, .selectClusters => (O h .selectClusters).map fun _ => clusters.map ClusterRow.cluster
  | h, .latestMetric clusterId => (O h (.latestMetric clusterId)).map fun _ =>
    (latestMetric metrics clusterId).map MetricRow.toClusterMetric
  | h, c => O h c

def evaluation (clusters : List ClusterRow) (metrics : List MetricRow) (O : IntakeWorld)
    (eval : TriggerEval) (tasks : List Execution) : IntakeTrace :=
  (run (tabled clusters metrics O) (Scheduler.evaluate eval) tasks).2.2

/-- The destination of a row is online and has been measured. -/
def LiveDestination (clusters : List ClusterRow) (metrics : List MetricRow) (row : Migration) :
    Prop :=
  ∃ c ∈ clusters, c.id = row.destClusterId ∧ c.status = .online ∧
    ∃ m ∈ metrics, m.clusterId = c.id

instance (clusters : List ClusterRow) (metrics : List MetricRow) (row : Migration) :
    Decidable (LiveDestination clusters metrics row) :=
  inferInstanceAs (Decidable (∃ c ∈ clusters, _))

/-- An enabled policy that was loaded finds the destination of the row best among all registered
clusters that do not fire its trigger. -/
def BestDestination (clusters : List ClusterRow) (metrics : List MetricRow) (eval : TriggerEval)
    (h : IntakeTrace) (row : Migration) : Prop :=
  ∃ policies, Has (· = ⟨.selectPolicies, .ok policies⟩) h ∧
    ∃ policy ∈ policies, policy.enabled = true ∧ ∃ c ∈ clusters, c.id = row.destClusterId ∧
      Scheduler.Best (policy.get "target" "least_loaded")
        ((clusters.map (·.snapshot metrics)).filter fun s => !policy.violates eval s)
        (c.snapshot metrics)

section Destination
variable {clusters : List ClusterRow} {metrics : List MetricRow} {O : IntakeWorld}
  {eval : TriggerEval} {tasks : List Execution} {h : IntakeTrace}

theorem tabled_clusters {listed : List Cluster}
    (hO : tabled clusters metrics O h .selectClusters = .ok listed) :
    listed = clusters.map ClusterRow.cluster := by
  rw [tabled] at hO
  cases hq : O h .selectClusters with
  | error x => rw [hq] at hO; cases hO
  | ok v => rw [hq] at hO; cases hO; rfl

theorem tabled_metric {clusterId : String} {metric : Option ClusterMetric}
    (hO : tabled clusters metrics O h (.latestMetric clusterId) = .ok metric) :
    metric = (latestMetric metrics clusterId).map MetricRow.toClusterMetric := by
  rw [tabled] at hO
  cases hq : O h (.latestMetric clusterId) with
  | error x => rw [hq] at hO; cases hO
  | ok v => rw [hq] at hO; cases hO; rfl

theorem eq_map_of_forall₂ {f : Cluster → ClusterSnapshot} {cs : List Cluster}
    {snaps : List ClusterSnapshot} (hs : List.Forall₂ (fun c snap => snap = f c) cs snaps) :
    snaps = cs.map f := by
  induction hs with
  | nil => rfl
  | cons hc _ ih => rw [List.map_cons, hc, ih]

theorem snapshots_of_tables {pre : IntakeTrace} {snaps : List ClusterSnapshot}
    (hpre : pre <+: evaluation clusters metrics O eval tasks)
    (hs : List.Forall₂ (Sampled pre) (clusters.map ClusterRow.cluster) snaps) :
    snaps = clusters.map (·.snapshot metrics) := by
  have hsampled : ∀ c snap, Sampled pre c snap → snap =
      Scheduler.snapshot c ((latestMetric metrics c.id).map MetricRow.toClusterMetric) := by
    rintro c snap ⟨metric, hm, rfl⟩
    obtain ⟨t, ht⟩ := reply_of_has hm hpre
    rw [tabled_metric ht.symm]
  have hmap := eq_map_of_forall₂ (hs.imp hsampled)
  rw [List.map_map] at hmap
  exact hmap

theorem respects_evaluation (clusters : List ClusterRow) (metrics : List MetricRow)
    (O : IntakeWorld) (eval : TriggerEval) (tasks : List Execution) :
    Respects (QueueLaw (Planned eval)) (evaluation clusters metrics O eval tasks) :=
  wp_exec_end (Scheduler.wp_evaluate eval tasks) _

def justRegistered : List ClusterRow :=
  [{ id := "a", name := "fra", authUrl := "", region := "", grpcAddr := "", status := .online },
    registerCluster { name := "iad", authUrl := "", grpcAddr := "" } "b"]

end Destination

end NovaFederation
