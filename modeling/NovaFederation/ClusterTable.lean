import NovaFederation.Election
import NovaFederation.Intake

/-!
# The tables of clusters and of their metrics

A cluster is registered through the API, as a worker that is offline and has no metrics yet. The
scheduler reads both tables and nothing else of a cluster. Python's `float` is `ℚ` here.
-/

namespace NovaFederation

inductive ClusterStatus
  | online
  | degraded
  | offline
  deriving DecidableEq

structure ClusterRow where
  id : String
  name : String
  authUrl : String
  region : String
  grpcAddr : String
  role : NodeRole := .worker
  status : ClusterStatus := .offline
  bgpAs : Option ℕ := none
  bgpSpeakerAddr : Option String := none
  deriving DecidableEq

structure MetricRow extends ClusterMetric where
  clusterId : String
  collectedAt : Timestamp

structure ClusterCreate where
  name : String
  authUrl : String
  region : String := "RegionOne"
  grpcAddr : String
  bgpAs : Option ℕ := none
  bgpSpeakerAddr : Option String := none

/-- The row that `register_cluster` adds under a fresh id. -/
def registerCluster (body : ClusterCreate) (id : String) : ClusterRow where
  id
  name := body.name
  authUrl := body.authUrl
  region := body.region
  grpcAddr := body.grpcAddr
  bgpAs := body.bgpAs
  bgpSpeakerAddr := body.bgpSpeakerAddr
  role := .worker
  status := .offline

/-- `ORDER BY collected_at DESC LIMIT 1` among the metrics of a cluster. -/
def latestMetric (metrics : List MetricRow) (clusterId : String) : Option MetricRow :=
  (metrics.filter (·.clusterId == clusterId)).argmax (·.collectedAt)

def ClusterRow.cluster (row : ClusterRow) : Cluster where
  id := row.id
  name := row.name
  grpcAddr := row.grpcAddr

/-- What `_collect_snapshots` makes of a row. -/
def ClusterRow.snapshot (metrics : List MetricRow) (row : ClusterRow) : ClusterSnapshot :=
  Scheduler.snapshot row.cluster ((latestMetric metrics row.id).map MetricRow.toClusterMetric)

@[simp] theorem snapshot_clusterId (metrics : List MetricRow) (row : ClusterRow) :
    (row.snapshot metrics).clusterId = row.id := by
  unfold ClusterRow.snapshot Scheduler.snapshot
  split <;> rfl

theorem latestMetric_eq_none_iff {metrics : List MetricRow} {clusterId : String} :
    latestMetric metrics clusterId = none ↔ ∀ m ∈ metrics, m.clusterId ≠ clusterId := by
  rw [latestMetric, List.argmax_eq_none, List.filter_eq_nil_iff]
  simp

/-- A cluster without metrics counts as idle and empty. -/
theorem snapshot_of_no_metrics {metrics : List MetricRow} {row : ClusterRow}
    (hm : ∀ m ∈ metrics, m.clusterId ≠ row.id) :
    row.snapshot metrics = ⟨row.id, row.name, row.grpcAddr, 0, 0, 0, 0⟩ := by
  rw [ClusterRow.snapshot, latestMetric_eq_none_iff.2 hm]
  rfl

end NovaFederation
