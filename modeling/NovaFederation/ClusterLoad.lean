import Mathlib.Algebra.BigOperators.Ring.List
import Mathlib.Algebra.Order.BigOperators.Group.List
import Mathlib.Data.Rat.Floor
import NovaFederation.QueuedRows
import NovaFederation.Rounding

/-!
# What the clusters report of their load

The agent of a cluster asks Nova for its hypervisors at every interval and adds a row with the
share of their resources that is in use. The scheduler compares the last row of each cluster with
the limit that a policy sets. So a cluster is relieved only if one of its hypervisors is loaded
beyond the limit itself, whichever of the agents are late or fail and whenever the rows come in.
-/

namespace NovaFederation
open Coroutine History Rounding

/-! ### Collecting -/

/-- A hypervisor as the SDK returns it. Nova may leave a number out. -/
structure Hypervisor where
  vcpus : Option ℕ
  vcpusUsed : Option ℕ
  memorySize : Option ℕ
  memoryUsed : Option ℕ
  localDiskSize : Option ℕ
  localDiskUsed : Option ℕ

structure ClusterUsage extends ClusterMetric where
  networkBwMbps : ℚ

inductive MetricsCall
  | hypervisors
  | servers
  | insert (clusterId : String) (raw : ClusterUsage)

@[reducible] def MetricsCall.Reply : MetricsCall → Type
  | .hypervisors => List Hypervisor
  | .servers => List String
  | .insert _ _ => Unit

abbrev Metrics := Coroutine Unit PyException MetricsCall MetricsCall.Reply

abbrev gather (c : MetricsCall) : Metrics c.Reply := perform c

abbrev MetricsWorld := Oracle PyException MetricsCall MetricsCall.Reply

structure Totals where
  totalVcpus : ℕ := 0
  usedVcpus : ℕ := 0
  totalRam : ℕ := 0
  usedRam : ℕ := 0
  totalDisk : ℕ := 0
  usedDisk : ℕ := 0

/-- `total += n`, which raises a `TypeError` for `None`. -/
def plus (total : ℕ) : Option ℕ → Except PyException ℕ
  | some n => .ok (total + n)
  | none => .error ⟨.other, "unsupported operand type(s) for +=: 'int' and 'NoneType'"⟩

def Totals.add (t : Totals) (h : Hypervisor) : Except PyException Totals := do
  let totalVcpus ← plus t.totalVcpus h.vcpus
  let usedVcpus ← plus t.usedVcpus h.vcpusUsed
  let totalRam ← plus t.totalRam h.memorySize
  let usedRam ← plus t.usedRam h.memoryUsed
  let totalDisk ← plus t.totalDisk h.localDiskSize
  let usedDisk ← plus t.usedDisk h.localDiskUsed
  pure { totalVcpus, usedVcpus, totalRam, usedRam, totalDisk, usedDisk }

/-- The division and the product are those of doubles. -/
def usedPct (used total : ℕ) : ℚ :=
  if total = 0 then 0 else double (double ((used : ℚ) / total) * 100)

/-- `round(pct, 2)` is the double nearest to a decimal. -/
def pctRound (pct : ℚ) : ℚ := double (roundTo 2 pct)

def Totals.usage (t : Totals) (vmCount : ℕ) : ClusterUsage where
  cpuUsedPct := pctRound (usedPct t.usedVcpus t.totalVcpus)
  ramUsedPct := pctRound (usedPct t.usedRam t.totalRam)
  diskUsedPct := pctRound (usedPct t.usedDisk t.totalDisk)
  vmCount
  networkBwMbps := 0

def getClusterMetrics : Metrics ClusterUsage := do
  let hypervisors ← gather .hypervisors
  let t : Totals ← ofExcept (hypervisors.foldlM Totals.add {})
  let servers ← gather .servers
  pure (t.usage servers.length)

/-- A round of `_metrics_loop`. -/
def collectMetrics (clusterId : String) : Metrics Unit :=
  tryCatch (do
    let raw ← getClusterMetrics
    gather (.insert clusterId raw)) fun _ => pure ()

/-! ### The table of metrics -/

structure Collection where
  clusterId : String
  world : MetricsWorld
  now : Timestamp

namespace Collection

def inserted (now : Timestamp) : Event PyException MetricsCall MetricsCall.Reply → Option MetricRow
  | ⟨.insert clusterId raw, .ok _⟩ =>
    some { raw.toClusterMetric with clusterId, collectedAt := now }
  | _ => none

def rows (r : Collection) : List MetricRow :=
  (run r.world (collectMetrics r.clusterId) ()).2.2.filterMap (inserted r.now)

structure Found (r : Collection) (hypervisors : List Hypervisor) (servers : List String) :
    Prop where
  told : r.world [] .hypervisors = .ok hypervisors
  counted : r.world [⟨.hypervisors, .ok hypervisors⟩] .servers = .ok servers

end Collection

/-- The rows that rounds leave, in any order in which their transactions take place. -/
def metricsTable (rounds : List Collection) : List MetricRow := rounds.flatMap Collection.rows

/-- The last round of a cluster that has left a row. -/
def Latest (rounds : List Collection) (r : Collection) : Prop :=
  r.rows ≠ [] ∧ ∃ before after, rounds = before ++ r :: after ∧
    ∀ r' ∈ after, r'.clusterId = r.clusterId → r'.rows = []

/-- The clock of the database moves on between two rounds of one agent. -/
def Timed (rounds : List Collection) : Prop :=
  rounds.Pairwise fun r r' => r.clusterId = r'.clusterId → r.now < r'.now

namespace Collection
variable {r : Collection} {row : MetricRow}

def Completed (clusterId : String) (h : History PyException MetricsCall MetricsCall.Reply) :
    Prop :=
  ∃ hypervisors servers t, hypervisors.foldlM Totals.add {} = .ok t ∧
    h = [⟨.hypervisors, .ok hypervisors⟩, ⟨.servers, .ok servers⟩,
      ⟨.insert clusterId (t.usage servers.length), .ok ()⟩]

theorem wp_collectMetrics (clusterId : String) (now : Timestamp) :
    wp (collectMetrics clusterId)
      (fun _ _ h => h.filterMap (inserted now) = [] ∨ Completed clusterId h)
      (fun _ _ h => h.filterMap (inserted now) = [] ∨ Completed clusterId h) () [] := by
  rw [collectMetrics, wp_tryCatch, wp_bind, getClusterMetrics, wp_bind, wp_perform]
  refine ⟨fun hypervisors => ?_, fun _ => .inl rfl⟩
  rw [wp_bind]
  cases ht : hypervisors.foldlM Totals.add {} with
  | error x => exact .inl rfl
  | ok t =>
    change wp (gather .servers >>= fun servers => _) _ _ _ _
    rw [wp_bind, wp_perform]
    refine ⟨fun servers => ?_, fun _ => .inl rfl⟩
    rw [wp_pure, wp_perform]
    refine ⟨fun _ => .inr ⟨hypervisors, servers, t, ht, rfl⟩, fun _ => .inl rfl⟩

/-- A round leaves one row or none, and a row only of what Nova has answered. -/
theorem rows_cases (r : Collection) :
    r.rows = [] ∨ ∃ hypervisors servers t, r.Found hypervisors servers ∧
      hypervisors.foldlM Totals.add {} = .ok t ∧
      r.rows = [{ (t.usage servers.length).toClusterMetric with
        clusterId := r.clusterId, collectedAt := r.now }] := by
  unfold rows
  rcases wp_exec_end (wp_collectMetrics r.clusterId r.now) r.world with hno | hdone
  · exact .inl hno
  · obtain ⟨hypervisors, servers, t, ht, hrun⟩ := hdone
    change (run r.world (collectMetrics r.clusterId) ()).2.2 = _ at hrun
    have hh : [] ++ [⟨.hypervisors, .ok hypervisors⟩] <+:
        (run r.world (collectMetrics r.clusterId) ()).2.2 := by
      rw [hrun]
      exact ⟨_, rfl⟩
    have hs : [⟨.hypervisors, .ok hypervisors⟩] ++ [⟨.servers, .ok servers⟩] <+:
        (run r.world (collectMetrics r.clusterId) ()).2.2 := by
      rw [hrun]
      exact ⟨_, rfl⟩
    have hfound : r.Found hypervisors servers := ⟨(reply_of_run hh).symm, (reply_of_run hs).symm⟩
    rw [hrun]
    exact .inr ⟨hypervisors, servers, t, hfound, ht, rfl⟩

end Collection

/-! ### The last row -/

theorem mem_metricsTable {rounds : List Collection} {row : MetricRow} :
    row ∈ metricsTable rounds ↔ ∃ r ∈ rounds, row ∈ r.rows := List.mem_flatMap

theorem row_of_mem {r : Collection} {row : MetricRow} (h : row ∈ r.rows) :
    r.rows = [row] ∧ row.clusterId = r.clusterId ∧ row.collectedAt = r.now := by
  rcases r.rows_cases with hno | ⟨hypervisors, servers, t, -, -, hrow⟩
  · rw [hno] at h
    cases h
  · rw [hrow] at h ⊢
    obtain rfl := List.mem_singleton.1 h
    exact ⟨rfl, rfl, rfl⟩

theorem Latest.unique {rounds : List Collection} {r r' : Collection} (h : Latest rounds r)
    (h' : Latest rounds r') (hc : r.clusterId = r'.clusterId) : r = r' := by
  obtain ⟨hrows, before, after, hsplit, hafter⟩ := h
  obtain ⟨hrows', before', after', hsplit', hafter'⟩ := h'
  rw [hsplit] at hsplit'
  rcases List.append_eq_append_iff.1 hsplit' with ⟨between, -, heq⟩ | ⟨between, -, heq⟩
  · cases between with
    | nil => exact (List.cons.inj heq).1
    | cons x between =>
      have hmem : r' ∈ after := by simp [(List.cons.inj heq).2]
      exact absurd (hafter r' hmem hc.symm) hrows'
  · cases between with
    | nil => exact (List.cons.inj heq).1.symm
    | cons x between =>
      have hmem : r ∈ after' := by simp [(List.cons.inj heq).2]
      exact absurd (hafter' r hmem hc) hrows

section Table
variable {rounds : List Collection} {clusterId : String} {row : MetricRow}

theorem latest_of_latestMetric (hclock : Timed rounds)
    (h : latestMetric (metricsTable rounds) clusterId = some row) :
    ∃ r, Latest rounds r ∧ r.clusterId = clusterId ∧ r.rows = [row] := by
  obtain ⟨hmem, hc⟩ := List.mem_filter.1 (List.argmax_mem h)
  obtain ⟨r, hr, hrow⟩ := mem_metricsTable.1 hmem
  obtain ⟨hrows, hid, hnow⟩ := row_of_mem hrow
  have hcluster : row.clusterId = clusterId := by simpa using hc
  obtain ⟨before, after, hsplit⟩ := List.append_of_mem hr
  refine ⟨r, ⟨by simp [hrows], before, after, hsplit, fun r' hr' hsame => ?_⟩,
    hid.symm.trans hcluster, hrows⟩
  -- a later row of the cluster would have a later time
  by_contra hne
  obtain ⟨row', hrow'⟩ := List.exists_mem_of_ne_nil _ hne
  obtain ⟨-, hid', hnow'⟩ := row_of_mem hrow'
  have hin : row' ∈ (metricsTable rounds).filter (·.clusterId == clusterId) := by
    refine List.mem_filter.2 ⟨mem_metricsTable.2 ⟨r', by simp [hsplit, hr'], hrow'⟩, ?_⟩
    simp [hid', hsame, ← hid, hcluster]
  have hle : row'.collectedAt ≤ row.collectedAt := List.le_of_mem_argmax hin h
  rw [Timed, hsplit, List.pairwise_append, List.pairwise_cons] at hclock
  have hlt := hclock.2.1.1 r' hr' hsame.symm
  rw [hnow, hnow'] at hle
  exact absurd hlt (Nat.not_lt.2 hle)

theorem latestMetric_of_latest (hclock : Timed rounds) {r : Collection} (h : Latest rounds r)
    (hrow : r.rows = [row]) : latestMetric (metricsTable rounds) r.clusterId = some row := by
  cases hlast : latestMetric (metricsTable rounds) r.clusterId with
  | none =>
    obtain ⟨-, before, after, hsplit, -⟩ := id h
    have hmem : row ∈ metricsTable rounds :=
      mem_metricsTable.2 ⟨r, by simp [hsplit], by simp [hrow]⟩
    exact absurd (row_of_mem (by simp [hrow])).2.1 (latestMetric_eq_none_iff.1 hlast row hmem)
  | some row' =>
    obtain ⟨r', h', hc, hrow'⟩ := latest_of_latestMetric hclock hlast
    obtain rfl := h'.unique h hc
    exact congrArg some (List.singleton_inj.1 (hrow'.symm.trans hrow))

end Table

/-! ### Limits -/

inductive Resource
  | cpu
  | ram
  | disk

namespace Hypervisor

def size (h : Hypervisor) : Resource → Option ℕ
  | .cpu => h.vcpus
  | .ram => h.memorySize
  | .disk => h.localDiskSize

def used (h : Hypervisor) : Resource → Option ℕ
  | .cpu => h.vcpusUsed
  | .ram => h.memoryUsed
  | .disk => h.localDiskUsed

end Hypervisor

def ClusterMetric.pct (m : ClusterMetric) : Resource → ℚ
  | .cpu => m.cpuUsedPct
  | .ram => m.ramUsedPct
  | .disk => m.diskUsedPct

def TriggerContext.pct (ctx : TriggerContext) : Resource → ℚ
  | .cpu => ctx.cpuPct
  | .ram => ctx.ramPct
  | .disk => ctx.diskPct

def sizeOf (hypervisors : List Hypervisor) (resource : Resource) : ℕ :=
  (hypervisors.map fun h => (h.size resource).getD 0).sum

def useOf (hypervisors : List Hypervisor) (resource : Resource) : ℕ :=
  (hypervisors.map fun h => (h.used resource).getD 0).sum

/-- The limit of `k` hundredths of a percent, as the trigger has it. -/
def limit (k : ℕ) : ℚ := double (k / 100)

/-- The trigger says that more of the resource is in use than the limit, of a size that makes
sense. -/
structure Policy.Limits (eval : TriggerEval) (policy : Policy) (resource : Resource) (k : ℕ) :
    Prop where
  small : k ≤ 2 ^ 40
  evaluates : ∀ ctx, eval (policy.get "trigger" "") ctx =
    some (decide (limit k < ctx.pct resource))

-- a trigger that the scheduler is run with below
example : Scheduler.relieveCpu.Limits cpuAbove80 .cpu 8000 := by
  have hlimit : limit 8000 = 80 := by decide +kernel
  exact ⟨by decide, fun ctx => by rw [hlimit]; rfl⟩

/-- The trigger says that the cluster has more than `n` VMs. -/
def Policy.Crowds (eval : TriggerEval) (policy : Policy) (n : ℕ) : Prop :=
  ∀ ctx, eval (policy.get "trigger" "") ctx = some (decide (n < ctx.vmCount))

namespace Totals

def size (t : Totals) : Resource → ℕ
  | .cpu => t.totalVcpus
  | .ram => t.totalRam
  | .disk => t.totalDisk

def used (t : Totals) : Resource → ℕ
  | .cpu => t.usedVcpus
  | .ram => t.usedRam
  | .disk => t.usedDisk

theorem pct_usage (t : Totals) (vmCount : ℕ) (resource : Resource) :
    (t.usage vmCount).toClusterMetric.pct resource =
      pctRound (usedPct (t.used resource) (t.size resource)) := by
  cases resource with
  | cpu => rfl
  | ram => rfl
  | disk => rfl

theorem plus_bind_eq_ok {α : Type} {total : ℕ} {o : Option ℕ} {f : ℕ → Except PyException α} {a : α}
    (h : plus total o >>= f = .ok a) : ∃ n, o = some n ∧ f (total + n) = .ok a := by
  cases o with
  | none => cases h
  | some n => exact ⟨n, rfl, h⟩

theorem add_eq_ok {t t' : Totals} {h : Hypervisor} (hadd : t.add h = .ok t')
    (resource : Resource) :
    ∃ size used, h.size resource = some size ∧ h.used resource = some used ∧
      t'.size resource = t.size resource + size ∧ t'.used resource = t.used resource + used := by
  obtain ⟨vcpus, hvcpus, hadd⟩ := plus_bind_eq_ok hadd
  obtain ⟨vcpusUsed, hvcpusUsed, hadd⟩ := plus_bind_eq_ok hadd
  obtain ⟨ram, hram, hadd⟩ := plus_bind_eq_ok hadd
  obtain ⟨ramUsed, hramUsed, hadd⟩ := plus_bind_eq_ok hadd
  obtain ⟨disk, hdisk, hadd⟩ := plus_bind_eq_ok hadd
  obtain ⟨diskUsed, hdiskUsed, hadd⟩ := plus_bind_eq_ok hadd
  obtain rfl := Except.ok.inj hadd
  cases resource with
  | cpu => exact ⟨vcpus, vcpusUsed, hvcpus, hvcpusUsed, rfl, rfl⟩
  | ram => exact ⟨ram, ramUsed, hram, hramUsed, rfl, rfl⟩
  | disk => exact ⟨disk, diskUsed, hdisk, hdiskUsed, rfl, rfl⟩

theorem foldlM_eq_ok {hypervisors : List Hypervisor} {t t' : Totals}
    (h : hypervisors.foldlM Totals.add t = .ok t') (resource : Resource) :
    t'.size resource = t.size resource + sizeOf hypervisors resource ∧
      t'.used resource = t.used resource + useOf hypervisors resource ∧
      ∀ h ∈ hypervisors, (h.size resource).isSome ∧ (h.used resource).isSome := by
  induction hypervisors generalizing t with
  | nil =>
    obtain rfl := Except.ok.inj h
    exact ⟨rfl, rfl, nofun⟩
  | cons a hypervisors ih =>
    rw [List.foldlM_cons] at h
    cases hadd : t.add a with
    | error x =>
      rw [hadd] at h
      cases h
    | ok u =>
      rw [hadd] at h
      obtain ⟨hsize, hused, hall⟩ := ih h
      obtain ⟨size, used, ha, hb, hu, hv⟩ := add_eq_ok hadd resource
      refine ⟨?_, ?_, List.forall_mem_cons.2 ⟨by simp [ha, hb], hall⟩⟩
      · rw [hsize, hu, sizeOf, sizeOf, List.map_cons, List.sum_cons, ha, Option.getD_some]
        omega
      · rw [hused, hv, useOf, useOf, List.map_cons, List.sum_cons, hb, Option.getD_some]
        omega

/-- The loop sums up what all hypervisors have, and raises if one of them leaves a number out. -/
theorem summed {hypervisors : List Hypervisor} {t : Totals}
    (h : hypervisors.foldlM Totals.add {} = .ok t) (resource : Resource) :
    t.size resource = sizeOf hypervisors resource ∧ t.used resource = useOf hypervisors resource ∧
      ∀ h ∈ hypervisors, (h.size resource).isSome ∧ (h.used resource).isSome := by
  have hzero : ({} : Totals).size resource = 0 ∧ ({} : Totals).used resource = 0 := by
    cases resource <;> exact ⟨rfl, rfl⟩
  obtain ⟨hsize, hused, hall⟩ := foldlM_eq_ok h resource
  rw [hzero.1, Nat.zero_add] at hsize
  rw [hzero.2, Nat.zero_add] at hused
  exact ⟨hsize, hused, hall⟩

end Totals

/-- Doubles tell hundredths apart. -/
theorem double_hundredths_lt {j k : ℤ} (hj : 0 ≤ j) (hk : j < k) (hsmall : j ≤ 2 ^ 40) :
    double ((j : ℚ) / 100) < double ((k : ℚ) / 100) := by
  have hj' : (0 : ℚ) ≤ j := Int.cast_nonneg hj
  have hk' : (j : ℚ) + 1 ≤ k := by exact_mod_cast hk
  have hsmall' : (j : ℚ) ≤ 2 ^ 40 := by exact_mod_cast hsmall
  have hlow := (abs_le.1 (double_close (div_nonneg hj' (by norm_num : (0 : ℚ) ≤ 100)))).2
  have hhigh := (abs_le.1 (double_close
    (div_nonneg (hj'.trans (by linarith : (j : ℚ) ≤ k)) (by norm_num : (0 : ℚ) ≤ 100)))).1
  norm_num at hlow hhigh hsmall'
  linarith

/-- A share in percent is close to what it would be without the two roundings. -/
theorem percent_close {share : ℚ} (hshare : 0 ≤ share) :
    |double (double share * 100) - share * 100| ≤ share * 100 / 2 ^ 51 + 1 / 2 ^ 50 := by
  have hdivided := abs_le.1 (double_close hshare)
  have hproduct := abs_le.1 (double_close
    (mul_nonneg (double_nonneg hshare) (by norm_num : (0 : ℚ) ≤ 100)))
  rw [abs_le]
  constructor
  · linarith [hdivided.1, hdivided.2, hproduct.1, hproduct.2]
  · linarith [hdivided.1, hdivided.2, hproduct.1, hproduct.2]

theorem usedPct_nonneg (used total : ℕ) : 0 ≤ usedPct used total := by
  unfold usedPct
  split_ifs
  · exact le_rfl
  · have hshare : 0 ≤ double ((used : ℚ) / total) := double_nonneg (by positivity)
    exact double_nonneg (mul_nonneg hshare (by norm_num))

theorem limit_lt_iff {k : ℕ} {pct : ℚ} (hsmall : k ≤ 2 ^ 40) (hpct : 0 ≤ pct) :
    limit k < pctRound pct ↔ (k : ℤ) < halfEven (pct * 100) := by
  have hround : pctRound pct = double ((halfEven (pct * 100) : ℚ) / 100) := by
    rw [pctRound, roundTo]
    norm_num
  have hlimit : limit k = double (((k : ℤ) : ℚ) / 100) := by simp [limit]
  rw [hround, hlimit]
  constructor
  · intro h
    rcases lt_trichotomy (k : ℤ) (halfEven (pct * 100)) with hlt | heq | hgt
    · exact hlt
    · rw [heq] at h
      exact absurd h (lt_irrefl _)
    · have hle : halfEven (pct * 100) ≤ 2 ^ 40 := by omega
      have hnonneg := halfEven_nonneg (mul_nonneg hpct (by norm_num : (0 : ℚ) ≤ 100))
      exact absurd h (double_hundredths_lt hnonneg hgt hle).not_gt
  · intro hlt
    exact double_hundredths_lt (Int.natCast_nonneg k) hlt (by exact_mod_cast hsmall)

/-- A share above a limit is above it before it is rounded. -/
theorem lt_of_limit {k used total : ℕ} (hsmall : k ≤ 2 ^ 40)
    (h : limit k < pctRound (usedPct used total)) : k * total < 10000 * used := by
  rw [limit_lt_iff hsmall (usedPct_nonneg _ _)] at h
  have hk : (k : ℚ) + 1 ≤ halfEven (usedPct used total * 100) := by exact_mod_cast h
  have hround := halfEven_le_add (usedPct used total * 100)
  have hsmall' : (k : ℚ) ≤ 1099511627776 := by exact_mod_cast hsmall
  unfold usedPct at hk hround
  split_ifs at hk hround with htotal
  · have hnonneg : (0 : ℚ) ≤ k := Nat.cast_nonneg k
    exact absurd (hk.trans hround) (by linarith)
  · have hpos : (0 : ℚ) < total := by exact_mod_cast Nat.pos_of_ne_zero htotal
    have hshare : (0 : ℚ) ≤ (used : ℚ) / total := by positivity
    have hclose := (abs_le.1 (percent_close hshare)).2
    have hlt : (k : ℚ) / 10000 < used / total := by linarith
    rw [lt_div_iff₀ hpos] at hlt
    have hcast : (k : ℚ) * total < 10000 * used := by linarith
    exact_mod_cast hcast

/-- A share that is no more than a limit once it is rounded is above it by less than a hundredth. -/
theorem lt_of_not_limit {k used total : ℕ} (hsmall : k ≤ 2 ^ 40) (htotal : 0 < total)
    (h : ¬ limit k < pctRound (usedPct used total)) : 10000 * used < (k + 1) * total := by
  rw [limit_lt_iff hsmall (usedPct_nonneg _ _), not_lt] at h
  have hk : (halfEven (usedPct used total * 100) : ℚ) ≤ k := by exact_mod_cast h
  have hround := le_halfEven_add (usedPct used total * 100)
  have hsmall' : (k : ℚ) ≤ 1099511627776 := by exact_mod_cast hsmall
  rw [usedPct, if_neg htotal.ne'] at hk hround
  have hpos : (0 : ℚ) < total := by exact_mod_cast htotal
  have hshare : (0 : ℚ) ≤ (used : ℚ) / total := by positivity
  have hclose := (abs_le.1 (percent_close hshare)).1
  have hlt : (used : ℚ) / total < (k + 1) / 10000 := by linarith
  rw [div_lt_iff₀ hpos] at hlt
  have hcast : 10000 * (used : ℚ) < (k + 1) * total := by linarith
  exact_mod_cast hcast

theorem exists_loaded {hypervisors : List Hypervisor} {resource : Resource} {k : ℕ}
    (h : k * sizeOf hypervisors resource < 10000 * useOf hypervisors resource) :
    ∃ h ∈ hypervisors, k * (h.size resource).getD 0 < 10000 * (h.used resource).getD 0 := by
  rw [sizeOf, useOf, ← List.sum_map_mul_left, ← List.sum_map_mul_left] at h
  exact List.exists_lt_of_sum_lt _ _ h

/-! ### A pass of the scheduler while rounds take place -/

/-- The queries of a pass for the last metric of a cluster are answered from the rounds that have
taken place by then, unless they raise. -/
def sampling (seen : IntakeTrace → List Collection) (O : IntakeWorld) : IntakeWorld
  | h, .latestMetric clusterId => (O h (.latestMetric clusterId)).map fun _ =>
    (latestMetric (metricsTable (seen h)) clusterId).map MetricRow.toClusterMetric
  | h, c => O h c

def sampledPass (seen : IntakeTrace → List Collection) (O : IntakeWorld) (eval : TriggerEval)
    (tasks : List Execution) : IntakeTrace :=
  (run (sampling seen O) (Scheduler.evaluate eval) tasks).2.2

/-- The last metric of the cluster was read when `h` had happened. -/
def ReadAfter (t h : IntakeTrace) (clusterId : String) : Prop :=
  ∃ reply, h ++ [⟨.latestMetric clusterId, reply⟩] <+: t

/-- `P` holds of what Nova answered in the last round of the cluster. -/
def LastTold (rounds : List Collection) (clusterId : String)
    (P : List Hypervisor → List String → Prop) : Prop :=
  ∃ r, Latest rounds r ∧ r.clusterId = clusterId ∧
    ∃ hypervisors servers, r.Found hypervisors servers ∧ P hypervisors servers

/-- The source of a row that a policy queues was beyond the limit of the policy, on one hypervisor
at least, when the scheduler read its last metric, and the destination, if it had been measured, was
not beyond it by a hundredth of a percent. -/
structure Warranted (seen : IntakeTrace → List Collection) (eval : TriggerEval) (policy : Policy)
    (t : IntakeTrace) (row : Migration) : Prop where
  source : ∃ h, ReadAfter t h row.sourceClusterId ∧
    (∀ resource k, policy.Limits eval resource k →
      LastTold (seen h) row.sourceClusterId fun hypervisors _ => ∃ a ∈ hypervisors, ∃ size used,
        a.size resource = some size ∧ a.used resource = some used ∧ k * size < 10000 * used) ∧
    ∀ n, policy.Crowds eval n →
      LastTold (seen h) row.sourceClusterId fun _ servers => n < servers.length
  dest : ∃ h, ReadAfter t h row.destClusterId ∧
    (∀ resource k, policy.Limits eval resource k →
      ¬ LastTold (seen h) row.destClusterId fun hypervisors _ => 0 < sizeOf hypervisors resource ∧
        (k + 1) * sizeOf hypervisors resource ≤ 10000 * useOf hypervisors resource) ∧
    ∀ n, policy.Crowds eval n →
      ¬ LastTold (seen h) row.destClusterId fun _ servers => n < servers.length

section Pass
variable {seen : IntakeTrace → List Collection} {O : IntakeWorld} {eval : TriggerEval}
  {tasks : List Execution} {policy : Policy} {rounds : List Collection} {clusterId : String}
  {r : Collection} {hypervisors : List Hypervisor} {servers : List String}

theorem told_of_metric (hclock : Timed rounds) {row : MetricRow}
    (h : latestMetric (metricsTable rounds) clusterId = some row) :
    ∃ r hypervisors servers t, Latest rounds r ∧ r.clusterId = clusterId ∧
      r.Found hypervisors servers ∧ hypervisors.foldlM Totals.add {} = .ok t ∧
      row.toClusterMetric = (t.usage servers.length).toClusterMetric := by
  obtain ⟨r, hlatest, hc, hrow⟩ := latest_of_latestMetric hclock h
  rcases r.rows_cases with hno | ⟨hypervisors, servers, t, hfound, ht, hrow'⟩
  · exact absurd hno hlatest.1
  · obtain rfl := List.singleton_inj.1 (hrow.symm.trans hrow')
    exact ⟨r, hypervisors, servers, t, hlatest, hc, hfound, ht, rfl⟩

theorem metric_of_told (hclock : Timed rounds) (hlatest : Latest rounds r)
    (hfound : r.Found hypervisors servers) :
    ∃ row t, latestMetric (metricsTable rounds) r.clusterId = some row ∧
      hypervisors.foldlM Totals.add {} = .ok t ∧
      row.toClusterMetric = (t.usage servers.length).toClusterMetric := by
  rcases r.rows_cases with hno | ⟨hypervisors', servers', t, hfound', ht, hrow⟩
  · exact absurd hno hlatest.1
  · obtain rfl := Except.ok.inj (hfound'.told.symm.trans hfound.told)
    obtain rfl := Except.ok.inj (hfound'.counted.symm.trans hfound.counted)
    exact ⟨_, t, latestMetric_of_latest hclock hlatest hrow, ht, rfl⟩

def ClusterSnapshot.context (snap : ClusterSnapshot) : TriggerContext :=
  ⟨snap.cpuUsedPct, snap.ramUsedPct, snap.diskUsedPct, snap.vmCount⟩

theorem violates_of_limits {resource : Resource} {k : ℕ} (hl : policy.Limits eval resource k)
    (snap : ClusterSnapshot) :
    policy.violates eval snap = true ↔ limit k < snap.context.pct resource := by
  have heval := hl.evaluates snap.context
  unfold Policy.violates Scheduler.evalTrigger
  rw [← ClusterSnapshot.context, heval, Option.getD_some, decide_eq_true_iff]

theorem violates_of_crowds {n : ℕ} (hc : policy.Crowds eval n) (snap : ClusterSnapshot) :
    policy.violates eval snap = true ↔ n < snap.vmCount := by
  have heval := hc snap.context
  unfold Policy.violates Scheduler.evalTrigger
  rw [← ClusterSnapshot.context, heval, Option.getD_some, decide_eq_true_iff]
  exact Iff.rfl

theorem pct_context (cluster : Cluster) (m : ClusterMetric) (resource : Resource) :
    (Scheduler.snapshot cluster (some m)).context.pct resource = m.pct resource := by
  cases resource with
  | cpu => rfl
  | ram => rfl
  | disk => rfl

theorem pct_unmeasured (cluster : Cluster) (resource : Resource) :
    (Scheduler.snapshot cluster none).context.pct resource = 0 := by
  cases resource with
  | cpu => rfl
  | ram => rfl
  | disk => rfl

def measured (rounds : List Collection) (cluster : Cluster) : ClusterSnapshot :=
  Scheduler.snapshot cluster
    ((latestMetric (metricsTable rounds) cluster.id).map MetricRow.toClusterMetric)

theorem loaded_of_violates (hclock : Timed rounds) {cluster : Cluster} {resource : Resource}
    {k : ℕ} (hl : policy.Limits eval resource k)
    (hv : policy.violates eval (measured rounds cluster) = true) :
    LastTold rounds cluster.id fun hypervisors _ => ∃ a ∈ hypervisors, ∃ size used,
      a.size resource = some size ∧ a.used resource = some used ∧ k * size < 10000 * used := by
  rw [violates_of_limits hl, measured] at hv
  cases hm : latestMetric (metricsTable rounds) cluster.id with
  | none =>
    rw [hm, Option.map_none, pct_unmeasured] at hv
    have hnonneg : 0 ≤ limit k := double_nonneg (by positivity)
    exact absurd hv (not_lt.2 hnonneg)
  | some row =>
    obtain ⟨r, hypervisors, servers, t, hlatest, hc, hfound, ht, hrow⟩ := told_of_metric hclock hm
    obtain ⟨hsize, hused, hall⟩ := Totals.summed ht resource
    rw [hm, Option.map_some, pct_context, hrow, Totals.pct_usage, hsize, hused] at hv
    obtain ⟨a, ha, hload⟩ := exists_loaded (lt_of_limit hl.small hv)
    obtain ⟨size, hs⟩ := Option.isSome_iff_exists.1 (hall a ha).1
    obtain ⟨used, hu⟩ := Option.isSome_iff_exists.1 (hall a ha).2
    rw [hs, hu, Option.getD_some, Option.getD_some] at hload
    exact ⟨r, hlatest, hc, hypervisors, servers, hfound, a, ha, size, used, hs, hu, hload⟩

theorem crowded_of_violates (hclock : Timed rounds) {cluster : Cluster} {n : ℕ}
    (hcrowds : policy.Crowds eval n)
    (hv : policy.violates eval (measured rounds cluster) = true) :
    LastTold rounds cluster.id fun _ servers => n < servers.length := by
  rw [violates_of_crowds hcrowds, measured] at hv
  cases hm : latestMetric (metricsTable rounds) cluster.id with
  | none =>
    rw [hm] at hv
    exact absurd hv (Nat.not_lt_zero n)
  | some row =>
    obtain ⟨r, hypervisors, servers, t, hlatest, hc, hfound, -, hrow⟩ := told_of_metric hclock hm
    rw [hm, Option.map_some, hrow] at hv
    exact ⟨r, hlatest, hc, hypervisors, servers, hfound, hv⟩

theorem not_loaded_of_not_violates (hclock : Timed rounds) {cluster : Cluster}
    {resource : Resource} {k : ℕ} (hl : policy.Limits eval resource k)
    (hv : policy.violates eval (measured rounds cluster) = false) :
    ¬ LastTold rounds cluster.id fun hypervisors _ => 0 < sizeOf hypervisors resource ∧
      (k + 1) * sizeOf hypervisors resource ≤ 10000 * useOf hypervisors resource := by
  rintro ⟨r, hlatest, hc, hypervisors, servers, hfound, hpos, hle⟩
  obtain ⟨row, t, hm, ht, hrow⟩ := metric_of_told hclock hlatest hfound
  obtain ⟨hsize, hused, -⟩ := Totals.summed ht resource
  rw [← Bool.not_eq_true, violates_of_limits hl, measured, ← hc, hm, Option.map_some, pct_context,
    hrow, Totals.pct_usage, hsize, hused] at hv
  exact absurd hle (Nat.not_le.2 (lt_of_not_limit hl.small hpos hv))

theorem not_crowded_of_not_violates (hclock : Timed rounds) {cluster : Cluster} {n : ℕ}
    (hcrowds : policy.Crowds eval n)
    (hv : policy.violates eval (measured rounds cluster) = false) :
    ¬ LastTold rounds cluster.id fun _ servers => n < servers.length := by
  rintro ⟨r, hlatest, hc, hypervisors, servers, hfound, hlt⟩
  obtain ⟨row, t, hm, -, hrow⟩ := metric_of_told hclock hlatest hfound
  rw [← Bool.not_eq_true, violates_of_crowds hcrowds, measured, ← hc, hm, Option.map_some,
    hrow] at hv
  exact hv hlt

@[simp] theorem measured_clusterId (rounds : List Collection) (cluster : Cluster) :
    (measured rounds cluster).clusterId = cluster.id := by
  unfold measured Scheduler.snapshot
  split <;> rfl

theorem exists_of_forall₂ {α β : Type} {R : α → β → Prop} {as : List α} {bs : List β}
    (h : List.Forall₂ R as bs) {b : β} (hb : b ∈ bs) : ∃ a, R a b := by
  induction h with
  | nil => cases hb
  | cons hr _ ih =>
    rcases List.mem_cons.1 hb with rfl | hb
    · exact ⟨_, hr⟩
    · exact ih hb

theorem read_of_sampled {pre : IntakeTrace} (hpre : pre <+: sampledPass seen O eval tasks)
    {clusters : List Cluster} {snaps : List ClusterSnapshot} {snap : ClusterSnapshot}
    (hs : List.Forall₂ (Sampled pre) clusters snaps) (hsnap : snap ∈ snaps) :
    ∃ h cluster, ReadAfter (sampledPass seen O eval tasks) h cluster.id ∧
      snap = measured (seen h) cluster := by
  obtain ⟨cluster, metric, ⟨e, hmem, rfl⟩, rfl⟩ := exists_of_forall₂ hs hsnap
  obtain ⟨h, rest, rfl⟩ := List.append_of_mem hmem
  have hread : h ++ [⟨.latestMetric cluster.id, .ok metric⟩] <+:
      sampledPass seen O eval tasks := by
    refine List.IsPrefix.trans ?_ hpre
    exact ⟨rest, by simp⟩
  refine ⟨h, cluster, ⟨_, hread⟩, ?_⟩
  have hanswer : Except.ok metric = sampling seen O h (.latestMetric cluster.id) :=
    reply_of_run hread
  rw [sampling] at hanswer
  cases hO : O h (.latestMetric cluster.id) with
  | error x =>
    rw [hO] at hanswer
    cases hanswer
  | ok v =>
    rw [hO] at hanswer
    obtain rfl := Except.ok.inj hanswer
    rfl

end Pass

/-- One of the two hypervisors of the cluster `a` is full, and `b` has nothing in use. -/
def oneFull : List Collection :=
  [⟨"a", fun
    | _, .hypervisors => .ok [⟨some 16, some 16, some 64, some 8, some 900, some 90⟩,
        ⟨some 8, some 5, some 64, some 8, some 900, some 90⟩]
    | _, .servers => .ok ["vm", "vm2"]
    | _, .insert _ _ => .ok (), 0⟩,
  ⟨"b", fun
    | _, .hypervisors => .ok [⟨some 16, some 0, some 64, some 0, some 900, some 0⟩]
    | _, .servers => .ok []
    | _, .insert _ _ => .ok (), 0⟩]

end NovaFederation
