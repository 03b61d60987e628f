import NovaFederation.SelfRegistration

/-!
# What the command line shows of a cluster

`openstack cnf cluster register` posts a cluster, and `cluster show` prints its row. Agents write
the table too: each sets its own row online with its own address when it starts, and its callbacks
set the role. So what is shown is what was posted, but for the last words of the cluster's own
agent; and no row ever goes back to being offline, whoever stops or crashes.
-/

namespace NovaFederation

/-! ### The command line and the endpoints -/

def NodeRole.value : NodeRole → String
  | .master => "master"
  | .worker => "worker"

def ClusterStatus.value : ClusterStatus → String
  | .online => "online"
  | .degraded => "degraded"
  | .offline => "offline"

structure ClusterResponse where
  id : String
  name : String
  authUrl : String
  region : String
  grpcAddr : String
  role : String
  status : String
  bgpAs : Option ℕ

def ClusterRow.response (row : ClusterRow) : ClusterResponse where
  id := row.id
  name := row.name
  authUrl := row.authUrl
  region := row.region
  grpcAddr := row.grpcAddr
  role := row.role.value
  status := row.status.value
  bgpAs := row.bgpAs

def getCluster (t : ClusterTable) (clusterId : String) : Except HTTPException ClusterResponse :=
  match t.rows.find? (·.id == clusterId) with
  | some row => .ok row.response
  | none => .error ⟨404, "Cluster not found"⟩

structure RegisterCluster where
  name : String
  authUrl : String
  grpcAddr : String
  region : String := "RegionOne"
  bgpAs : Option ℕ := none

inductive JsonValue
  | str (s : String)
  | int (n : ℕ)

def JsonValue.str? : JsonValue → Option String
  | .str s => some s
  | .int _ => none

def JsonValue.int? : JsonValue → Option ℕ
  | .str _ => none
  | .int n => some n

def RegisterCluster.body (args : RegisterCluster) : List (String × JsonValue) :=
  [("name", .str args.name), ("auth_url", .str args.authUrl), ("grpc_addr", .str args.grpcAddr),
    ("region", .str args.region)] ++
    ((args.bgpAs.filter (· ≠ 0)).map fun n => ("bgp_as", .int n)).toList

def required (body : List (String × JsonValue)) (key : String) : Option String :=
  (body.lookup key).bind JsonValue.str?

def defaulted {α : Type} (body : List (String × JsonValue)) (key : String)
    (read : JsonValue → Option α) (default : α) : Option α :=
  match body.lookup key with
  | some value => read value
  | none => some default

/-- The request that the endpoint reads from a body as the command line posts it, in which a number
is a number and a text is a text. -/
def ClusterCreate.validate (body : List (String × JsonValue)) : Option ClusterCreate := do
  let name ← required body "name"
  let authUrl ← required body "auth_url"
  let region ← defaulted body "region" JsonValue.str? "RegionOne"
  let grpcAddr ← required body "grpc_addr"
  let bgpAs ← defaulted body "bgp_as" (fun v => v.int?.map some) none
  let bgpSpeakerAddr ← defaulted body "bgp_speaker_addr" (fun v => v.str?.map some) none
  pure { name, authUrl, region, grpcAddr, bgpAs, bgpSpeakerAddr }

def showCluster (t : ClusterTable) (clusterId : String) :
    Except HTTPException (List String × Option ℕ) := do
  let c ← getCluster t clusterId
  pure ([c.id, c.name, c.authUrl, c.region, c.role, c.status, c.grpcAddr], c.bgpAs)

/-- What is posted is what was given, but for the number 0. -/
theorem validate_register (args : RegisterCluster) : ClusterCreate.validate args.body =
    some ⟨args.name, args.authUrl, args.region, args.grpcAddr,
      args.bgpAs.filter (· ≠ 0), none⟩ := by
  unfold RegisterCluster.body
  cases args.bgpAs.filter (· ≠ 0) with
  | none => rfl
  | some n => rfl

/-! ### The writers of the table -/

/-- `cluster.role = role` -/
def ClusterRow.setRole (row : ClusterRow) (clusterId : String) (role : NodeRole) : ClusterRow :=
  if row.id = clusterId then { row with role } else row

@[simp] theorem setRole_id (row : ClusterRow) (clusterId : String) (role : NodeRole) :
    (row.setRole clusterId role).id = row.id := by
  unfold ClusterRow.setRole
  split_ifs <;> rfl

@[simp] theorem setRole_name (row : ClusterRow) (clusterId : String) (role : NodeRole) :
    (row.setRole clusterId role).name = row.name := by
  unfold ClusterRow.setRole
  split_ifs <;> rfl

/-- What `_on_become_master` and `_on_lose_master` commit. -/
def ClusterTable.assign (t : ClusterTable) (clusterId : String) (role : NodeRole) :
    ClusterTable where
  rows := t.rows.map (·.setRole clusterId role)
  ids := by simpa [List.map_map, Function.comp_def] using t.ids
  names := by simpa [List.map_map, Function.comp_def] using t.names

inductive CatalogueAct
  | post (body : ClusterCreate) (id : String)
  | upsert (settings : AgentSettings)
  | assign (clusterId : String) (role : NodeRole)

namespace CatalogueAct

def attempt : CatalogueAct → ClusterTable → Except PyException ClusterTable
  | .post body id, t => t.insert (registerCluster body id)
  | .upsert settings, t => upsertSelfCluster settings t
  | .assign clusterId role, t => .ok (t.assign clusterId role)

/-- A transaction that fails is rolled back. -/
def apply (act : CatalogueAct) (t : ClusterTable) : ClusterTable :=
  match act.attempt t with
  | .ok t' => t'
  | .error _ => t

def touch : CatalogueAct → ClusterRow → ClusterRow
  | .post _ _, row => row
  | .upsert settings, row => settings.update row
  | .assign clusterId role, row => row.setRole clusterId role

def addrOf (id : String) : CatalogueAct → Option String
  | .upsert settings => if settings.clusterId = id then some settings.clusterGrpcAddr else none
  | _ => none

def roleOf (id : String) : CatalogueAct → Option NodeRole
  | .assign clusterId role => if clusterId = id then some role else none
  | _ => none

end CatalogueAct

def catalogueAfter (acts : List CatalogueAct) : ClusterTable :=
  acts.foldl (fun t act => act.apply t) .empty

def lastAddr (id : String) (acts : List CatalogueAct) : Option String :=
  (acts.filterMap (CatalogueAct.addrOf id)).getLast?

def lastRole (id : String) (acts : List CatalogueAct) : Option NodeRole :=
  (acts.filterMap (CatalogueAct.roleOf id)).getLast?

section Runs
variable {acts : List CatalogueAct} {act : CatalogueAct} {t t' : ClusterTable}
  {row : ClusterRow}

theorem mem_insert (h : row ∈ t.rows) {new : ClusterRow} (hok : t.insert new = .ok t') :
    row ∈ t'.rows := by
  obtain ⟨t'', hok', hrows⟩ := exists_insert (admits_of_insert hok)
  obtain rfl := Except.ok.inj (hok'.symm.trans hok)
  rw [hrows]
  exact List.mem_append_left _ h

theorem touch_mem (h : row ∈ t.rows) (act : CatalogueAct) : act.touch row ∈ (act.apply t).rows := by
  unfold CatalogueAct.apply
  cases act with
  | post body id =>
    cases hok : t.insert (registerCluster body id) with
    | error x =>
      rw [CatalogueAct.attempt, hok]
      exact h
    | ok t' =>
      rw [CatalogueAct.attempt, hok]
      exact mem_insert h hok
  | upsert settings =>
    rcases upsert_cases settings t with ⟨_, -, -, hupsert⟩ | ⟨hids, hupsert⟩
    · rw [CatalogueAct.attempt, hupsert]
      exact List.mem_map_of_mem h
    · have hsame : settings.update row = row := if_neg (hids row h)
      rw [CatalogueAct.touch, hsame, CatalogueAct.attempt, hupsert]
      cases hok : t.insert (settings.appear settings.selfCluster) with
      | error x => exact h
      | ok t' => exact mem_insert h hok
  | assign clusterId role => exact List.mem_map_of_mem h

def touched (acts : List CatalogueAct) (row : ClusterRow) : ClusterRow :=
  acts.foldl (fun row act => act.touch row) row

theorem touched_snoc (acts : List CatalogueAct) (act : CatalogueAct) (row : ClusterRow) :
    touched (acts ++ [act]) row = act.touch (touched acts row) := by
  simp [touched]

theorem touched_mem (h : row ∈ t.rows) (acts : List CatalogueAct) :
    touched acts row ∈ (acts.foldl (fun t act => act.apply t) t).rows := by
  induction acts generalizing t row with
  | nil => exact h
  | cons act acts ih => exact ih (touch_mem h act)

theorem lastAddr_snoc (id : String) (acts : List CatalogueAct) (act : CatalogueAct) :
    lastAddr id (acts ++ [act]) = (act.addrOf id).or (lastAddr id acts) := by
  unfold lastAddr
  rw [List.filterMap_append, List.getLast?_append]
  cases h : act.addrOf id with
  | none => simp [h]
  | some addr => simp [h]

theorem lastRole_snoc (id : String) (acts : List CatalogueAct) (act : CatalogueAct) :
    lastRole id (acts ++ [act]) = (act.roleOf id).or (lastRole id acts) := by
  unfold lastRole
  rw [List.filterMap_append, List.getLast?_append]
  cases h : act.roleOf id with
  | none => simp [h]
  | some role => simp [h]

theorem touched_eq (acts : List CatalogueAct) (row : ClusterRow) :
    touched acts row = { row with
      role := (lastRole row.id acts).getD row.role
      status := ((lastAddr row.id acts).map fun _ => .online).getD row.status
      grpcAddr := (lastAddr row.id acts).getD row.grpcAddr } := by
  induction acts using List.reverseRecOn with
  | nil => rfl
  | append_singleton acts act ih =>
    rw [touched_snoc, ih, lastAddr_snoc, lastRole_snoc]
    cases act with
    | post body id => rfl
    | upsert settings =>
      by_cases hid : row.id = settings.clusterId
      · simp [CatalogueAct.touch, CatalogueAct.addrOf, CatalogueAct.roleOf, AgentSettings.update,
          AgentSettings.appear, hid]
      · simp [CatalogueAct.touch, CatalogueAct.addrOf, CatalogueAct.roleOf, AgentSettings.update,
          hid, Ne.symm hid]
    | assign clusterId role =>
      by_cases hid : row.id = clusterId
      · simp [CatalogueAct.touch, CatalogueAct.addrOf, CatalogueAct.roleOf, ClusterRow.setRole, hid]
      · simp [CatalogueAct.touch, CatalogueAct.addrOf, CatalogueAct.roleOf, ClusterRow.setRole, hid,
          Ne.symm hid]

theorem getCluster_of_mem (h : row ∈ t.rows) : getCluster t row.id = .ok row.response := by
  unfold getCluster
  cases hfind : t.rows.find? (·.id == row.id) with
  | none => exact absurd (beq_self_eq_true row.id) (by simpa using List.find?_eq_none.1 hfind row h)
  | some row' =>
    have hid : row'.id = row.id := beq_iff_eq.1 (List.find?_some hfind :)
    rw [eq_of_id (List.mem_of_find?_eq_some hfind) h hid]

theorem posted_mem {body : ClusterCreate} {id : String}
    (hadmits : (catalogueAfter acts).Admits (registerCluster body id))
    (acts' : List CatalogueAct) : touched acts' (registerCluster body id) ∈
      (catalogueAfter (acts ++ .post body id :: acts')).rows := by
  obtain ⟨t, hok, hrows⟩ := exists_insert hadmits
  have hpost : (CatalogueAct.post body id).apply (catalogueAfter acts) = t := by
    rw [CatalogueAct.apply, CatalogueAct.attempt, hok]
  have hrow : registerCluster body id ∈ t.rows := by
    rw [hrows]
    exact List.mem_append_right _ (List.mem_singleton_self _)
  have hrun : catalogueAfter (acts ++ .post body id :: acts') =
      acts'.foldl (fun t act => act.apply t) t := by
    rw [← hpost, catalogueAfter, List.foldl_append, List.foldl_cons]
    rfl
  rw [hrun]
  exact touched_mem hrow acts'

end Runs

/-- After any run `cluster show` prints what `cluster register` was given, but for the role, the
status and the address, which are the last words of the cluster's agent if it has had any. -/
theorem registered_shown (acts acts' : List CatalogueAct) (args : RegisterCluster)
    (body : ClusterCreate) (id : String) (hbody : ClusterCreate.validate args.body = some body)
    (hadmits : (catalogueAfter acts).Admits (registerCluster body id)) :
    showCluster (catalogueAfter (acts ++ .post body id :: acts')) id = .ok
      ([id, args.name, args.authUrl, args.region, ((lastRole id acts').getD .worker).value,
        (if (lastAddr id acts').isSome then "online" else "offline"),
        (lastAddr id acts').getD args.grpcAddr], args.bgpAs.filter (· ≠ 0)) := by
  obtain rfl := Option.some.inj ((validate_register args).symm.trans hbody)
  have hmem := posted_mem hadmits acts'
  rw [touched_eq] at hmem
  have hget := getCluster_of_mem hmem
  have hstatus : (((lastAddr id acts').map fun _ => ClusterStatus.online).getD .offline).value =
      if (lastAddr id acts').isSome then "online" else "offline" := by
    cases lastAddr id acts' with
    | none => rfl
    | some addr => rfl
  rw [showCluster, ← hstatus]
  exact congrArg (fun r => r >>= fun c : ClusterResponse => Except.ok
    ([c.id, c.name, c.authUrl, c.region, c.role, c.status, c.grpcAddr], c.bgpAs)) hget

/-- The agent of the cluster starts at another address and wins the election, and the number 0 is
as good as none. -/
theorem registered_shown_iad :
    showCluster (catalogueAfter [.post ⟨"iad", "http://iad", "RegionOne", "10.0.0.1:50051", none,
        none⟩ "c1", .upsert ⟨"c1", "iad", "10.0.0.2:50051", "", "", 65000⟩, .assign "c1" .master])
      "c1" = .ok (["c1", "iad", "http://iad", "RegionOne", "master", "online", "10.0.0.2:50051"],
        none) :=
  registered_shown [] _
    { name := "iad", authUrl := "http://iad", grpcAddr := "10.0.0.1:50051", bgpAs := some 0 }
    _ "c1" (validate_register _) (by decide)

end NovaFederation
