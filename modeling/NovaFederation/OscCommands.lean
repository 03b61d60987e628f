import NovaFederation.Announcement
import NovaFederation.HostRoutes
import NovaFederation.Ownership

/-!
# A live migration from the command line

`openstack cnf vm live-migrate` leaves out of its request what is not given, the endpoint fills in
`None`, and the engine finds the options as they are then. Both the host and the next hop are
optional on the way, and the migration needs both: without a host the memory step raises, and
without a next hop the announcement of an address does, after the guest and its disks have moved.
-/

namespace NovaFederation
open Coroutine History

structure LiveMigrateVM where
  vmId : String
  destCluster : String
  destHost : Option String := none
  destNextHop : Option String := none

def optional (key : String) (value : Option String) : List (String × String) :=
  ((value.filter (· ≠ "")).map (key, ·)).toList

def LiveMigrateVM.body (args : LiveMigrateVM) : List (String × String) :=
  [("dest_cluster_id", args.destCluster)] ++ optional "dest_host" args.destHost ++
    optional "dest_next_hop" args.destNextHop

def MigrateRequest.validate (body : List (String × String)) : Option MigrateRequest := do
  let destClusterId ← body.lookup "dest_cluster_id"
  pure ⟨destClusterId, body.lookup "dest_host", body.lookup "dest_next_hop"⟩

theorem lookup_optional_same (key : String) (value : Option String) :
    (optional key value).lookup key = value.filter (· ≠ "") := by
  unfold optional
  cases value.filter (· ≠ "") with
  | none => rfl
  | some v => simp

theorem lookup_optional_other {key key' : String} (hne : key ≠ key') (value : Option String) :
    (optional key value).lookup key' = none := by
  unfold optional
  cases value.filter (· ≠ "") with
  | none => rfl
  | some v => simp [beq_false_of_ne hne.symm]

/-- What arrives is what was given and is not empty. -/
theorem validate_body (args : LiveMigrateVM) : MigrateRequest.validate args.body =
    some ⟨args.destCluster, args.destHost.filter (· ≠ ""), args.destNextHop.filter (· ≠ "")⟩ := by
  have hhost : args.body.lookup "dest_host" = args.destHost.filter (· ≠ "") := by
    rw [LiveMigrateVM.body, List.lookup_append, List.lookup_append, lookup_optional_same,
      lookup_optional_other (by decide)]
    simp [List.lookup_cons]
  have hhop : args.body.lookup "dest_next_hop" = args.destNextHop.filter (· ≠ "") := by
    rw [LiveMigrateVM.body, List.lookup_append, List.lookup_append, lookup_optional_same,
      lookup_optional_other (by decide)]
    simp [List.lookup_cons]
  have hcluster : args.body.lookup "dest_cluster_id" = some args.destCluster := by
    simp [LiveMigrateVM.body]
  rw [MigrateRequest.validate, hcluster, hhost, hhop]
  rfl

section Engine
variable {cfg : Settings} {ctx : MigrationContext} {O : World} {bgp : BGPConfig}
  {frr : Trace → FrrWorld}

/-- A live engine that succeeds has moved the guest to the host of its options. -/
theorem moved_to_dest_host (hfresh : ctx.Fresh)
    (hres : (MigrationType.live.migrate cfg ctx O).result = .ok true) :
    ∃ host sourceHost job, ctx.options.get "dest_host" "" = some host ∧ host ≠ "" ∧
      job.migrated = true ∧
      Has (· = ⟨.doMigrate ctx.vmId sourceHost host, .ok job⟩)
        (MigrationType.live.migrate cfg ctx O).trace := by
  have hrep := report .live cfg ctx O
  rw [hres] at hrep
  obtain ⟨e, he, vmId, sourceHost, host, job, rfl, hjob⟩ := (Finished.relocated hrep).migrated rfl
  obtain ⟨rfl, hhost, hne⟩ := minds_of_mem (run_minds .live cfg ctx hfresh O) he
  exact ⟨host, sourceHost, job, hhost, hne, hjob, _, he, rfl⟩

/-- Without a next hop an announcement raises, whatever its commands do. -/
theorem announce_without_hop (W : FrrWorld) (bgp : BGPConfig) {route : BGPRoute}
    (hhop : route.nextHop = none) : (run W (FRRClient.announce bgp route) ()).1 ≠ .ok () := by
  cases hv : (configured W bgp route.pfx).reply with
  | error e =>
    rw [run_announce_of_error hv]
    exact nofun
  | ok p =>
    by_cases hp : p.returncode = 0
    · rw [run_announce_of_none hv hp hhop]
      exact nofun
    · rw [run_announce_of_failed hv hp]
      exact nofun

/-- A live engine that succeeds has announced every address with the next hop of its options. -/
theorem announced_by_next_hop
    (hres : (MigrationType.live.migrate cfg ctx (onRouter bgp frr O)).result = .ok true)
    {pfx : String}
    (hpfx : pfx ∈ routePrefixes (MigrationType.live.migrate cfg ctx (onRouter bgp frr O)).state) :
    ∃ via, ctx.options.get "dest_next_hop" "" = some via ∧
      Has (· = ⟨.announce ⟨pfx, some via⟩, .ok ()⟩)
        (MigrationType.live.migrate cfg ctx (onRouter bgp frr O)).trace := by
  have hover := wp_of_true .live (wp_body_routes .live cfg ctx) hres rfl
  obtain ⟨e, he, hop, rfl⟩ := hover.announced pfx hpfx
  obtain ⟨pre, post, htrace⟩ := List.append_of_mem he
  have hhop : hop = ctx.options.get "dest_next_hop" "" := (hover.calls _ he).2
  have hprefix : pre ++ [⟨.announce ⟨pfx, hop⟩, .ok ()⟩] <+:
      (MigrationType.live.migrate cfg ctx (onRouter bgp frr O)).trace :=
    ⟨post, by rw [htrace, List.append_assoc, List.singleton_append]⟩
  have hreply : Except.ok () = (run (frr pre) (FRRClient.announce bgp ⟨pfx, hop⟩) ()).1 :=
    reply_of_run hprefix
  cases hop with
  | some via => exact ⟨via, hhop.symm, _, he, rfl⟩
  | none => exact absurd hreply.symm (announce_without_hop _ _ rfl)

theorem mem_routePrefixes {ip : String}
    (hip : ip ∈ vmAddresses .live ctx (MigrationType.live.migrate cfg ctx O).trace) :
    s!"{ip}/32" ∈ routePrefixes (MigrationType.live.migrate cfg ctx O).state := by
  rw [← (addressed_migrate .live cfg ctx O).ips] at hip
  exact List.mem_map_of_mem hip

end Engine

/-- Whatever else happens, a live migration that is asked for on the command line succeeds only
when a host was given, to which the guest has moved, and when a next hop was given or there is no
address to go by. The router then has a network statement of each address. -/
theorem live_migrate_vm_succeeds (cfg : Settings) (args : LiveMigrateVM) (req : MigrateRequest)
    (hreq : MigrateRequest.validate args.body = some req) (migrationId : String)
    (bgp : BGPConfig) (frr : Trace → FrrWorld) (O : World)
    (hres : (MigrationType.live.migrate cfg (runMigration cfg migrationId args.vmId req true)
      (onRouter bgp frr O)).result = .ok true) :
    let run := MigrationType.live.migrate cfg (runMigration cfg migrationId args.vmId req true)
      (onRouter bgp frr O)
    (∃ host sourceHost job, args.destHost = some host ∧ host ≠ "" ∧ job.migrated = true ∧
        Has (· = ⟨.doMigrate args.vmId sourceHost host, .ok job⟩) run.trace) ∧
      ∀ ip ∈ vmAddresses .live (runMigration cfg migrationId args.vmId req true) run.trace,
        (∃ via, args.destNextHop = some via ∧ via ≠ "" ∧
          Has (· = ⟨.announce ⟨s!"{ip}/32", some via⟩, .ok ()⟩) run.trace) ∧
        ∀ (eff : CommandEffects) (r : Router),
          (routerAfter bgp frr eff r run.trace).networks s!"{ip}/32" = true := by
  rw [validate_body] at hreq
  obtain rfl := Option.some.inj hreq
  have hfresh : (runMigration cfg migrationId args.vmId ⟨args.destCluster,
      args.destHost.filter (· ≠ ""), args.destNextHop.filter (· ≠ "")⟩ true).Fresh :=
    ⟨rfl, rfl, rfl⟩
  constructor
  · obtain ⟨host, sourceHost, job, hhost, hne, hjob, hmoved⟩ := moved_to_dest_host hfresh hres
    have hgiven : args.destHost.filter (· ≠ "") = some host := hhost
    exact ⟨host, sourceHost, job, (Option.filter_eq_some_iff.1 hgiven).1, hne, hjob, hmoved⟩
  · intro ip hip
    have hpfx := mem_routePrefixes hip
    refine ⟨?_, fun eff r => networks_of_true .live cfg _ bgp frr O eff r hres _ hpfx⟩
    obtain ⟨via, hvia, hannounced⟩ := announced_by_next_hop hres hpfx
    have hgiven : args.destNextHop.filter (· ≠ "") = some via := hvia
    obtain ⟨hsome, hne⟩ := Option.filter_eq_some_iff.1 hgiven
    exact ⟨via, hsome, of_decide_eq_true hne, hannounced⟩

def exitingZero : Trace → FrrWorld := fun _ _ _ => .ok ⟨0, ""⟩

theorem live_migrate_vm_succeeds_given :
    let ip := "10.0.0.5"
    let run := MigrationType.live.migrate settings
      (runMigration settings "m" "vm" ⟨"cluster-b", some "compute-2", some "192.0.2.1"⟩ true)
      (onRouter ⟨65001⟩ exitingZero (cooperative twoVolumes))
    (∃ via, some "192.0.2.1" = some via ∧ via ≠ "" ∧
        Has (· = ⟨.announce ⟨s!"{ip}/32", some via⟩, .ok ()⟩) run.trace) ∧
      ∀ (eff : CommandEffects) (r : Router),
        (routerAfter ⟨65001⟩ exitingZero eff r run.trace).networks s!"{ip}/32" = true :=
  (live_migrate_vm_succeeds settings ⟨"vm", "cluster-b", some "compute-2", some "192.0.2.1"⟩
    ⟨"cluster-b", some "compute-2", some "192.0.2.1"⟩ rfl "m" ⟨65001⟩ exitingZero
    (cooperative twoVolumes) (by decide +kernel)).2 "10.0.0.5" (by decide +kernel)

example : (MigrationType.live.migrate settings
    (runMigration settings "m" "vm" ⟨"cluster-b", some "compute-2", none⟩ true)
    (onRouter ⟨65001⟩ exitingZero (cooperative twoVolumes))).result = .ok false := by
  decide +kernel

end NovaFederation
