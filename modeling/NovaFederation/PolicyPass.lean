import NovaFederation.Executions

/-!
# What one policy does in a pass

`applyPolicyWith` is the body of `_apply_policy` with `_trigger_rebalance` as a parameter, and
`rebalances` the calls that it makes of it: one for each cluster that fires the trigger, all with
the best of the other clusters.
-/

namespace NovaFederation
open Coroutine History

/-- The element that Python's `min` finds. -/
def FirstMin {α β : Type} [LinearOrder β] [DecidableEq α] (f : α → β) (l : List α) (a : α) :
    Prop :=
  a ∈ l ∧ (∀ b ∈ l, f a ≤ f b) ∧ ∀ b ∈ l, f b ≤ f a → l.idxOf a ≤ l.idxOf b

structure Rebalance where
  source : ClusterSnapshot
  dest : ClusterSnapshot
  action : String
  deriving DecidableEq

def Policy.violates (eval : TriggerEval) (policy : Policy) (snap : ClusterSnapshot) : Bool :=
  Scheduler.evalTrigger eval (policy.get "trigger" "") snap

namespace Scheduler
variable {σ C : Type} {V : C → Type} {eval : TriggerEval} {policy : Policy}
  {snapshots candidates : List ClusterSnapshot} {strategy : String} {dest : ClusterSnapshot}

section Choice
variable {K : Type} [LinearOrder K] (load : ClusterSnapshot → K)

/-- The choice of `_pick_dest`, whatever the load is measured by. -/
def BestBy (strategy : String) (candidates : List ClusterSnapshot) (dest : ClusterSnapshot) :
    Prop :=
  if strategy = "least_loaded" then FirstMin load candidates dest
  else if strategy = "least_vms" then FirstMin (fun s => s.vmCount) candidates dest
  else candidates.head? = some dest

theorem pickDestBy_eq_some_iff : pickDestBy load candidates strategy = some dest ↔
    BestBy load strategy candidates dest := by
  unfold pickDestBy BestBy
  split_ifs
  · exact List.mem_argmin_iff
  · exact List.mem_argmin_iff
  · exact Iff.rfl

theorem pickDestBy_eq_none_iff :
    pickDestBy load candidates strategy = none ↔ candidates = [] := by
  unfold pickDestBy
  split_ifs
  · exact List.argmin_eq_none
  · exact List.argmin_eq_none
  · exact List.head?_eq_none_iff

variable {load}

theorem BestBy.mem (hb : BestBy load strategy candidates dest) : dest ∈ candidates := by
  unfold BestBy at hb
  split_ifs at hb
  · exact hb.1
  · exact hb.1
  · exact List.mem_of_head? hb

theorem BestBy.unique {dest' : ClusterSnapshot} (hb : BestBy load strategy candidates dest)
    (hb' : BestBy load strategy candidates dest') : dest = dest' := by
  have h := (pickDestBy_eq_some_iff load).2 hb
  rw [(pickDestBy_eq_some_iff load).2 hb'] at h
  exact (Option.some.inj h).symm

end Choice

abbrev Best (strategy : String) (candidates : List ClusterSnapshot) (dest : ClusterSnapshot) :
    Prop :=
  BestBy (fun s => s.cpuUsedPct + s.ramUsedPct) strategy candidates dest

theorem pickDest_eq_some_iff : pickDest candidates strategy = some dest ↔
    Best strategy candidates dest := pickDestBy_eq_some_iff _

theorem pickDest_eq_none_iff : pickDest candidates strategy = none ↔ candidates = [] :=
  pickDestBy_eq_none_iff _

def applyPolicyWith
    (rebalance : ClusterSnapshot → ClusterSnapshot → String →
      Coroutine σ PyException C V (Option String))
    (eval : TriggerEval) (policy : Policy) (snapshots : List ClusterSnapshot) :
    Coroutine σ PyException C V Unit :=
  let violating := snapshots.filter (evalTrigger eval (policy.get "trigger" ""))
  if violating.isEmpty then
    pure ()
  else
    let candidates := snapshots.filter (· ∉ violating)
    match pickDest candidates (policy.get "target" "least_loaded") with
    | none => pure ()
    | some dest =>
      violating.forM fun source => do
        let _ ← rebalance source dest (policy.get "action" "")

theorem applyPolicy_eq_with (eval : TriggerEval) (policy : Policy)
    (snapshots : List ClusterSnapshot) :
    applyPolicy eval policy snapshots = applyPolicyWith triggerRebalance eval policy snapshots :=
  rfl

def spared (eval : TriggerEval) (policy : Policy) (snapshots : List ClusterSnapshot) :
    List ClusterSnapshot :=
  snapshots.filter fun s => !policy.violates eval s

def rebalances (eval : TriggerEval) (policy : Policy) (snapshots : List ClusterSnapshot) :
    List Rebalance :=
  match pickDest (spared eval policy snapshots) (policy.get "target" "least_loaded") with
  | none => []
  | some dest =>
    (snapshots.filter (policy.violates eval)).map fun source =>
      ⟨source, dest, policy.get "action" ""⟩

theorem filter_not_mem_filter (p : ClusterSnapshot → Bool) (l : List ClusterSnapshot) :
    l.filter (· ∉ l.filter p) = l.filter fun s => !p s := by
  apply List.filter_congr
  intro s hs
  by_cases hp : p s = true
  · simp [hs, hp]
  · simp [hp]

theorem applyPolicyWith_eq
    (rebalance : ClusterSnapshot → ClusterSnapshot → String →
      Coroutine σ PyException C V (Option String)) :
    applyPolicyWith rebalance eval policy snapshots =
      (rebalances eval policy snapshots).forM fun r => (do
        let _ ← rebalance r.source r.dest r.action) := by
  have hv : evalTrigger eval (policy.get "trigger" "") = policy.violates eval := rfl
  unfold applyPolicyWith rebalances
  dsimp only
  rw [hv, filter_not_mem_filter, ← spared]
  cases pickDest (spared eval policy snapshots) (policy.get "target" "least_loaded") with
  | none => exact ite_self _
  | some dest =>
    dsimp only
    by_cases hv : snapshots.filter (policy.violates eval) = []
    · rw [hv]
      rfl
    · rw [if_neg (by simpa [List.isEmpty_iff] using hv)]
      simp only [List.forM_eq_forM, List.forM_map]

theorem mem_rebalances {r : Rebalance} (hr : r ∈ rebalances eval policy snapshots) :
    r.source ∈ snapshots ∧ policy.violates eval r.source = true ∧
      Best (policy.get "target" "least_loaded") (spared eval policy snapshots) r.dest ∧
      r.action = policy.get "action" "" := by
  unfold rebalances at hr
  cases hd : pickDest (spared eval policy snapshots) (policy.get "target" "least_loaded") with
  | none =>
    rw [hd] at hr
    cases hr
  | some dest =>
    rw [hd] at hr
    obtain ⟨source, hs, rfl⟩ := List.mem_map.1 hr
    obtain ⟨hmem, hv⟩ := List.mem_filter.1 hs
    exact ⟨hmem, hv, pickDest_eq_some_iff.1 hd, rfl⟩

theorem BestBy.spared (hb : Best strategy (spared eval policy snapshots) dest) :
    dest ∈ snapshots ∧ policy.violates eval dest = false := by
  obtain ⟨hmem, hv⟩ := List.mem_filter.1 hb.mem
  exact ⟨hmem, by simpa using hv⟩

/-- One call for each cluster that fires the trigger, unless they all do. -/
theorem sources_rebalances : (rebalances eval policy snapshots).map Rebalance.source =
    if ∃ s ∈ snapshots, policy.violates eval s = false then
      snapshots.filter (policy.violates eval)
    else [] := by
  unfold rebalances
  cases hd : pickDest (spared eval policy snapshots) (policy.get "target" "least_loaded") with
  | none =>
    have hnone : spared eval policy snapshots = [] := pickDest_eq_none_iff.1 hd
    rw [if_neg]
    · rfl
    · rintro ⟨s, hs, hv⟩
      have hmem : s ∈ spared eval policy snapshots := List.mem_filter.2 ⟨hs, by simp [hv]⟩
      rw [hnone] at hmem
      cases hmem
  | some dest =>
    have hmem := (pickDest_eq_some_iff.1 hd).spared
    rw [if_pos ⟨dest, hmem⟩]
    simp [Function.comp_def]

/-! ### The calls of a pass -/

abbrev Rebalancer := Coroutine Unit PyException Rebalance fun _ => Option String

/-- A world that answers the calls of `_trigger_rebalance`. -/
abbrev Rebalancing := Oracle PyException Rebalance fun _ => Option String

def recorded (source dest : ClusterSnapshot) (action : String) : Rebalancer (Option String) :=
  perform ⟨source, dest, action⟩

def rebalanceCalls (O : Rebalancing) (eval : TriggerEval) (policy : Policy)
    (snapshots : List ClusterSnapshot) : History PyException Rebalance fun _ => Option String :=
  (run O (applyPolicyWith recorded eval policy snapshots) ()).2.2

theorem wp_forM_recorded (rs : List Rebalance) :
    wp (rs.forM fun r => (do let _ ← recorded r.source r.dest r.action))
      (fun _ _ h => h.map Event.call = rs) (fun _ _ h => ∃ e ∈ h, e.reply.isOk = false) () [] := by
  apply wp_forM (fun done _ h => h.map Event.call = done) rs
  · intro done r rest _ h _ hdone
    rw [wp_bind, recorded, wp_perform]
    constructor
    · intro v
      rw [wp_pure, List.map_append, hdone]
      rfl
    · exact fun x => ⟨⟨r, .error x⟩, by simp, rfl⟩
  · rfl

theorem calls_eq_rebalances {O : Rebalancing}
    (hO : ∀ e ∈ rebalanceCalls O eval policy snapshots, e.reply.isOk = true) :
    (rebalanceCalls O eval policy snapshots).map Event.call = rebalances eval policy snapshots := by
  obtain ⟨hok, herr⟩ := wp_exec O (wp_forM_recorded (rebalances eval policy snapshots))
  unfold rebalanceCalls run at hO ⊢
  rw [applyPolicyWith_eq] at hO ⊢
  rcases hout : exec O ((rebalances eval policy snapshots).forM _) () [] with ⟨x | _, s', h'⟩
  · rw [hout] at hO
    obtain ⟨e, he, hraised⟩ := herr x s' h' hout
    rw [hO e he] at hraised
    cases hraised
  · exact hok _ s' h' hout

/-- Every cluster that fires the trigger is relieved once, in order, unless all do, and all of
them by one cluster: the best of those that do not. -/
structure SoundPass (eval : TriggerEval) (policy : Policy) (snapshots : List ClusterSnapshot)
    (calls : List Rebalance) : Prop where
  sources : calls.map Rebalance.source =
    if ∃ s ∈ snapshots, policy.violates eval s = false then
      snapshots.filter (policy.violates eval)
    else []
  action : ∀ r ∈ calls, r.action = policy.get "action" ""
  same : ∀ r ∈ calls, ∀ r' ∈ calls, r.dest = r'.dest
  spares : ∀ r ∈ calls, r.dest ∈ snapshots ∧ policy.violates eval r.dest = false
  apart : ∀ r ∈ calls, ∀ r' ∈ calls, r.dest.clusterId ≠ r'.source.clusterId
  best : ∀ r ∈ calls, Best (policy.get "target" "least_loaded")
    (snapshots.filter fun s => !policy.violates eval s) r.dest

theorem soundPass_rebalances (hids : (snapshots.map ClusterSnapshot.clusterId).Nodup) :
    SoundPass eval policy snapshots (rebalances eval policy snapshots) where
  sources := sources_rebalances
  action _ hr := (mem_rebalances hr).2.2.2
  same _ hr _ hr' := (mem_rebalances hr).2.2.1.unique (mem_rebalances hr').2.2.1
  spares _ hr := (mem_rebalances hr).2.2.1.spared
  best _ hr := (mem_rebalances hr).2.2.1
  apart r hr r' hr' heq := by
    obtain ⟨hd, hv⟩ := (mem_rebalances hr).2.2.1.spared
    obtain ⟨hs, hv', -⟩ := mem_rebalances hr'
    have hsame : r.dest = r'.source := List.inj_on_of_nodup_map hids hd hs heq
    rw [hsame, hv'] at hv
    cases hv

def relieveCpu : Policy where
  name := "relieve"
  enabled := true
  rule := [("trigger", "cpu_pct > 80"), ("action", "migrate")]

end Scheduler

end NovaFederation
