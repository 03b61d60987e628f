import NovaFederation.ClusterTable

/-!
# The registration of an agent

An agent looks its cluster up by the id of its settings and inserts a row when there is none. An
operator may have registered the same cluster through the API, under an id that was drawn there.
The schema keeps both the ids and the names unique, so the two writers meet in the name.
-/

namespace NovaFederation

/-- What an agent writes about itself. -/
structure AgentSettings where
  clusterId : String
  clusterName : String
  clusterGrpcAddr : String
  authUrl : String
  regionName : String
  asNumber : ℕ

structure ClusterTable where
  rows : List ClusterRow
  ids : (rows.map (·.id)).Nodup
  names : (rows.map (·.name)).Nodup

def uniqueViolation : PyException := ⟨.other, "duplicate key value violates unique constraint"⟩

namespace ClusterTable

def empty : ClusterTable := ⟨[], List.nodup_nil, List.nodup_nil⟩

def Admits (t : ClusterTable) (row : ClusterRow) : Prop :=
  row.id ∉ t.rows.map (·.id) ∧ row.name ∉ t.rows.map (·.name)

instance (t : ClusterTable) (row : ClusterRow) : Decidable (t.Admits row) :=
  inferInstanceAs (Decidable (_ ∧ _))

theorem nodup_concat {α β : Type} {f : α → β} {l : List α} {a : α} (hl : (l.map f).Nodup)
    (ha : f a ∉ l.map f) : ((l ++ [a]).map f).Nodup := by
  rw [List.map_append, List.map_singleton, ← List.concat_eq_append]
  exact hl.concat ha

def insert (t : ClusterTable) (row : ClusterRow) : Except PyException ClusterTable :=
  if h : t.Admits row then
    .ok ⟨t.rows ++ [row], nodup_concat t.ids h.1, nodup_concat t.names h.2⟩
  else .error uniqueViolation

end ClusterTable

/-- What `_upsert_self_cluster` sets in an old row as in a new one. -/
def AgentSettings.appear (settings : AgentSettings) (row : ClusterRow) : ClusterRow :=
  { row with status := .online, grpcAddr := settings.clusterGrpcAddr }

def AgentSettings.selfCluster (settings : AgentSettings) : ClusterRow where
  id := settings.clusterId
  name := settings.clusterName
  authUrl := settings.authUrl
  region := settings.regionName
  grpcAddr := settings.clusterGrpcAddr
  bgpAs := some settings.asNumber

def AgentSettings.update (settings : AgentSettings) (row : ClusterRow) : ClusterRow :=
  if row.id = settings.clusterId then settings.appear row else row

@[simp] theorem update_id (settings : AgentSettings) (row : ClusterRow) :
    (settings.update row).id = row.id := by
  unfold AgentSettings.update
  split_ifs <;> rfl

@[simp] theorem update_name (settings : AgentSettings) (row : ClusterRow) :
    (settings.update row).name = row.name := by
  unfold AgentSettings.update
  split_ifs <;> rfl

namespace ClusterTable

def commit (t : ClusterTable) (settings : AgentSettings) : ClusterTable where
  rows := t.rows.map settings.update
  ids := by simpa [List.map_map, Function.comp_def] using t.ids
  names := by simpa [List.map_map, Function.comp_def] using t.names

end ClusterTable

def upsertSelfCluster (settings : AgentSettings) (t : ClusterTable) :
    Except PyException ClusterTable :=
  match t.rows.find? (·.id == settings.clusterId) with
  | some _ => .ok (t.commit settings)
  | none => t.insert (settings.appear settings.selfCluster)

/-- The call succeeds, and one row has the agent's name: online, with its id and its address. -/
def SelfRegistered (settings : AgentSettings) (result : Except PyException ClusterTable) : Prop :=
  ∃ t row, result = .ok t ∧ t.rows.filter (·.name == settings.clusterName) = [row] ∧
    row.id = settings.clusterId ∧ row.status = .online ∧ row.grpcAddr = settings.clusterGrpcAddr

/-! ### One table -/

section Table
variable {settings : AgentSettings} {t t' : ClusterTable} {row row' : ClusterRow}

theorem exists_insert (h : t.Admits row) :
    ∃ t', t.insert row = .ok t' ∧ t'.rows = t.rows ++ [row] := ⟨_, dif_pos h, rfl⟩

theorem insert_of_not_admits (h : ¬ t.Admits row) : t.insert row = .error uniqueViolation :=
  dif_neg h

theorem admits_of_insert (h : t.insert row = .ok t') : t.Admits row := by
  by_contra hno
  rw [insert_of_not_admits hno] at h
  cases h

theorem eq_of_name (hrow : row ∈ t.rows) (hrow' : row' ∈ t.rows) (h : row.name = row'.name) :
    row = row' := List.inj_on_of_nodup_map t.names hrow hrow' h

theorem eq_of_id (hrow : row ∈ t.rows) (hrow' : row' ∈ t.rows) (h : row.id = row'.id) :
    row = row' := List.inj_on_of_nodup_map t.ids hrow hrow' h

theorem filter_name (hrow : row ∈ t.rows) : t.rows.filter (·.name == row.name) = [row] := by
  have hnodup : (t.rows.filter (·.name == row.name)).Nodup := (List.Nodup.of_map _ t.names).filter _
  refine List.perm_singleton.1 ((List.perm_ext_iff_of_nodup hnodup (List.nodup_singleton row)).2 ?_)
  intro row'
  rw [List.mem_filter, beq_iff_eq, List.mem_singleton]
  constructor
  · rintro ⟨hrow', hname⟩
    exact eq_of_name hrow' hrow hname
  · rintro rfl
    exact ⟨hrow, rfl⟩

theorem filter_commit : (t.commit settings).rows.filter (·.name == settings.clusterName) =
    (t.rows.filter (·.name == settings.clusterName)).map settings.update := by
  rw [ClusterTable.commit, List.filter_map]
  simp only [Function.comp_def, update_name]

theorem upsert_cases (settings : AgentSettings) (t : ClusterTable) :
    (∃ row ∈ t.rows, row.id = settings.clusterId ∧
        upsertSelfCluster settings t = .ok (t.commit settings)) ∨
      ((∀ row ∈ t.rows, row.id ≠ settings.clusterId) ∧
        upsertSelfCluster settings t = t.insert (settings.appear settings.selfCluster)) := by
  unfold upsertSelfCluster
  cases hfind : t.rows.find? (·.id == settings.clusterId) with
  | some row =>
    exact .inl ⟨row, List.mem_of_find?_eq_some hfind, beq_iff_eq.1 (List.find?_some hfind :), rfl⟩
  | none =>
    refine .inr ⟨fun row hrow heq => ?_, rfl⟩
    exact List.find?_eq_none.1 hfind row hrow (beq_iff_eq.2 heq)

theorem selfRegistered_commit (hrow : row ∈ t.rows) (hid : row.id = settings.clusterId) :
    SelfRegistered settings (.ok (t.commit settings)) ↔ row.name = settings.clusterName := by
  constructor
  · rintro ⟨t', _, hok, hfilter, hown, -⟩
    obtain rfl := Except.ok.inj hok
    rw [filter_commit] at hfilter
    obtain ⟨named, hnamed, rfl⟩ := List.map_eq_singleton_iff.1 hfilter
    have hmem : named ∈ t.rows.filter (·.name == settings.clusterName) := by
      rw [hnamed]
      exact List.mem_singleton_self named
    obtain ⟨hin, hname⟩ := List.mem_filter.1 hmem
    rw [update_id] at hown
    rw [eq_of_id hrow hin (hid.trans hown.symm)]
    exact beq_iff_eq.1 hname
  · intro hname
    have hupdate : settings.update row = settings.appear row := if_pos hid
    refine ⟨t.commit settings, settings.update row, rfl, ?_, ?_, ?_, ?_⟩
    · rw [filter_commit, ← hname, filter_name hrow, List.map_singleton]
    · rw [update_id, hid]
    · rw [hupdate]
      rfl
    · rw [hupdate]
      rfl

theorem selfRegistered_insert (hids : ∀ row ∈ t.rows, row.id ≠ settings.clusterId) :
    SelfRegistered settings (t.insert (settings.appear settings.selfCluster)) ↔
      ∀ row ∈ t.rows, row.name ≠ settings.clusterName := by
  constructor
  · rintro ⟨t', _, hok, -⟩ row hrow hname
    exact (admits_of_insert hok).2 (List.mem_map.2 ⟨row, hrow, hname⟩)
  · intro hnames
    have hadmits : t.Admits (settings.appear settings.selfCluster) := by
      constructor
      · intro hmem
        obtain ⟨row, hrow, hid⟩ := List.mem_map.1 hmem
        exact hids row hrow hid
      · intro hmem
        obtain ⟨row, hrow, hname⟩ := List.mem_map.1 hmem
        exact hnames row hrow hname
    obtain ⟨t', hok, hrows⟩ := exists_insert hadmits
    have hold : t.rows.filter (·.name == settings.clusterName) = [] :=
      List.filter_eq_nil_iff.2 fun row hrow => by simpa using hnames row hrow
    have hnew : [settings.appear settings.selfCluster].filter (·.name == settings.clusterName) =
        [settings.appear settings.selfCluster] := by
      refine List.filter_eq_self.2 fun row hrow => ?_
      rw [List.mem_singleton.1 hrow]
      exact beq_self_eq_true settings.clusterName
    refine ⟨t', settings.appear settings.selfCluster, hok, ?_, rfl, rfl, rfl⟩
    rw [hrows, List.filter_append, hold, hnew, List.nil_append]

/-- The agent's id and its name are those of one row, or of none. -/
theorem selfRegistered_iff (settings : AgentSettings) (t : ClusterTable) :
    SelfRegistered settings (upsertSelfCluster settings t) ↔
      ∀ row ∈ t.rows, (row.name = settings.clusterName ↔ row.id = settings.clusterId) := by
  rcases upsert_cases settings t with ⟨row, hrow, hid, hupsert⟩ | ⟨hids, hupsert⟩
  · rw [hupsert, selfRegistered_commit hrow hid]
    constructor
    · intro hname other hother
      constructor
      · intro hsame
        rw [eq_of_name hother hrow (hsame.trans hname.symm), hid]
      · intro hsame
        rw [eq_of_id hother hrow (hsame.trans hid.symm), hname]
    · exact fun hiff => (hiff row hrow).2 hid
  · rw [hupsert, selfRegistered_insert hids]
    constructor
    · exact fun hnames row hrow => iff_of_false (hnames row hrow) (hids row hrow)
    · exact fun hiff row hrow hname => hids row hrow ((hiff row hrow).1 hname)

end Table

/-! ### All histories of the table -/

structure Agents (N : Type) where
  settings : N → AgentSettings
  ids : Function.Injective fun n => (settings n).clusterId
  names : Function.Injective fun n => (settings n).clusterName

inductive ClusterWrite {N : Type} (agents : Agents N)
  | post (body : ClusterCreate) (id : String) (fresh : ∀ n, (agents.settings n).clusterId ≠ id)
  | upsert (n : N)

section Histories
variable {N : Type} {agents : Agents N} {acts : List (ClusterWrite agents)}

def ClusterWrite.attempt : ClusterWrite agents → ClusterTable → Except PyException ClusterTable
  | .post body id _, t => t.insert (registerCluster body id)
  | .upsert n, t => upsertSelfCluster (agents.settings n) t

/-- A transaction that fails is rolled back. -/
def ClusterWrite.apply (act : ClusterWrite agents) (t : ClusterTable) : ClusterTable :=
  match act.attempt t with
  | .ok t' => t'
  | .error _ => t

def tableAfter (acts : List (ClusterWrite agents)) : ClusterTable :=
  acts.foldl (fun t act => act.apply t) .empty

theorem tableAfter_snoc (acts : List (ClusterWrite agents)) (act : ClusterWrite agents) :
    tableAfter (acts ++ [act]) = act.apply (tableAfter acts) := by
  simp [tableAfter]

/-- The names and ids that are taken. No write changes them, and one may add to them. -/
def ClusterTable.keys (t : ClusterTable) : List (String × String) :=
  t.rows.map fun row => (row.name, row.id)

theorem keys_commit (t : ClusterTable) (settings : AgentSettings) :
    (t.commit settings).keys = t.keys := by
  simp [ClusterTable.keys, ClusterTable.commit]

theorem apply_of_ok {act : ClusterWrite agents} {t t' : ClusterTable}
    (h : act.attempt t = .ok t') : act.apply t = t' := by
  rw [ClusterWrite.apply, h]

theorem apply_of_error {act : ClusterWrite agents} {t : ClusterTable} {e : PyException}
    (h : act.attempt t = .error e) : act.apply t = t := by
  rw [ClusterWrite.apply, h]

theorem keys_insert {act : ClusterWrite agents} {t : ClusterTable} {row : ClusterRow}
    (h : act.attempt t = t.insert row) : (act.apply t).keys =
      if t.Admits row then t.keys ++ [(row.name, row.id)] else t.keys := by
  by_cases hadmits : t.Admits row
  · obtain ⟨t', hok, hrows⟩ := exists_insert hadmits
    rw [if_pos hadmits, apply_of_ok (h.trans hok), ClusterTable.keys, hrows, List.map_append]
    rfl
  · rw [if_neg hadmits, apply_of_error (h.trans (insert_of_not_admits hadmits))]

theorem keys_upsert (n : N) (t : ClusterTable) :
    ((ClusterWrite.upsert n : ClusterWrite agents).apply t).keys = t.keys ∨
      ((ClusterWrite.upsert n : ClusterWrite agents).apply t).keys =
        t.keys ++ [((agents.settings n).clusterName, (agents.settings n).clusterId)] := by
  rcases upsert_cases (agents.settings n) t with ⟨_, -, -, hupsert⟩ | ⟨-, hupsert⟩
  · left
    have hok : (ClusterWrite.upsert n : ClusterWrite agents).attempt t = .ok _ := hupsert
    rw [apply_of_ok hok, keys_commit]
  · have hins : (ClusterWrite.upsert n : ClusterWrite agents).attempt t = t.insert _ := hupsert
    rw [keys_insert hins]
    split_ifs with hadmits
    · exact .inr rfl
    · exact .inl rfl

def KeysOwned (agents : Agents N) (t : ClusterTable) : Prop :=
  ∀ n name, (name, (agents.settings n).clusterId) ∈ t.keys →
    name = (agents.settings n).clusterName

theorem keysOwned_apply {act : ClusterWrite agents} {t : ClusterTable} (h : KeysOwned agents t) :
    KeysOwned agents (act.apply t) := by
  intro n name hmem
  cases act with
  | post body id fresh =>
    rw [keys_insert rfl] at hmem
    split_ifs at hmem with hadmits
    · rcases List.mem_append.1 hmem with hold | hnew
      · exact h n name hold
      · obtain ⟨-, hid⟩ := Prod.mk.inj (List.mem_singleton.1 hnew)
        exact absurd hid (fresh n)
    · exact h n name hmem
  | upsert m =>
    rcases keys_upsert m t with hkeys | hkeys
    · exact h n name (hkeys ▸ hmem)
    · rw [hkeys] at hmem
      rcases List.mem_append.1 hmem with hold | hnew
      · exact h n name hold
      · obtain ⟨hname, hid⟩ := Prod.mk.inj (List.mem_singleton.1 hnew)
        rw [hname, agents.ids hid]

theorem keysOwned_tableAfter (acts : List (ClusterWrite agents)) :
    KeysOwned agents (tableAfter acts) := by
  induction acts using List.reverseRecOn with
  | nil => exact fun _ _ hmem => absurd hmem List.not_mem_nil
  | append_singleton acts act ih =>
    rw [tableAfter_snoc]
    exact keysOwned_apply ih

/-- The agent's name stands under another id. -/
def Foreign (agents : Agents N) (n : N) (t : ClusterTable) : Prop :=
  ∃ id, ((agents.settings n).clusterName, id) ∈ t.keys ∧ id ≠ (agents.settings n).clusterId

/-- A request for the agent's name that the table accepts. -/
def TakesName (n : N) (t : ClusterTable) : ClusterWrite agents → Prop
  | .post body id _ =>
    body.name = (agents.settings n).clusterName ∧ t.Admits (registerCluster body id)
  | .upsert _ => False

theorem foreign_apply {n : N} {act : ClusterWrite agents} {t : ClusterTable} :
    Foreign agents n (act.apply t) ↔ Foreign agents n t ∨ TakesName n t act := by
  cases act with
  | post body id fresh =>
    unfold Foreign TakesName
    rw [keys_insert rfl]
    by_cases hadmits : t.Admits (registerCluster body id)
    · rw [if_pos hadmits]
      constructor
      · rintro ⟨id', hmem, hne⟩
        rcases List.mem_append.1 hmem with hold | hnew
        · exact .inl ⟨id', hold, hne⟩
        · exact .inr ⟨(Prod.mk.inj (List.mem_singleton.1 hnew)).1.symm, hadmits⟩
      · rintro (⟨id', hold, hne⟩ | ⟨hname, -⟩)
        · exact ⟨id', List.mem_append_left _ hold, hne⟩
        · refine ⟨id, List.mem_append_right _ (List.mem_singleton.2 ?_), (fresh n).symm⟩
          rw [← hname]
          rfl
    · rw [if_neg hadmits]
      simp [hadmits]
  | upsert m =>
    unfold Foreign TakesName
    rw [or_false]
    rcases keys_upsert m t with hkeys | hkeys
    · rw [hkeys]
    · rw [hkeys]
      constructor
      · rintro ⟨id, hmem, hne⟩
        rcases List.mem_append.1 hmem with hold | hnew
        · exact ⟨id, hold, hne⟩
        · obtain ⟨hname, hid⟩ := Prod.mk.inj (List.mem_singleton.1 hnew)
          rw [hid, agents.names hname] at hne
          exact absurd rfl hne
      · rintro ⟨id, hold, hne⟩
        exact ⟨id, List.mem_append_left _ hold, hne⟩

/-- Some request of the history has taken the agent's name. -/
def NameTaken (n : N) (acts : List (ClusterWrite agents)) : Prop :=
  ∃ pre act, pre ++ [act] <+: acts ∧ TakesName n (tableAfter pre) act

theorem NameTaken.append {n : N} (h : NameTaken n acts) (more : List (ClusterWrite agents)) :
    NameTaken n (acts ++ more) := by
  obtain ⟨pre, act, hpre, htakes⟩ := h
  exact ⟨pre, act, hpre.trans (List.prefix_append _ _), htakes⟩

theorem foreign_tableAfter_iff (n : N) (acts : List (ClusterWrite agents)) :
    Foreign agents n (tableAfter acts) ↔ NameTaken n acts := by
  induction acts using List.reverseRecOn with
  | nil =>
    refine iff_of_false ?_ ?_
    · rintro ⟨id, hmem, -⟩
      exact absurd hmem List.not_mem_nil
    · rintro ⟨pre, act, hpre, -⟩
      simp at hpre
  | append_singleton acts act ih =>
    rw [tableAfter_snoc, foreign_apply, ih]
    constructor
    · rintro (htaken | htakes)
      · exact htaken.append [act]
      · exact ⟨acts, act, List.prefix_rfl, htakes⟩
    · rintro ⟨pre, a, hpre, htakes⟩
      rcases List.prefix_concat_iff.1 hpre with heq | hshort
      · obtain ⟨rfl, hact⟩ := List.append_inj' heq rfl
        rw [List.singleton_inj.1 hact] at htakes
        exact .inr htakes
      · exact .inl ⟨pre, a, hshort, htakes⟩

theorem self_registration_iff (agents : Agents N) (acts : List (ClusterWrite agents)) (n : N) :
    SelfRegistered (agents.settings n)
        (upsertSelfCluster (agents.settings n) (tableAfter acts)) ↔ ¬ NameTaken n acts := by
  rw [selfRegistered_iff, ← foreign_tableAfter_iff]
  constructor
  · rintro hiff ⟨id, hmem, hne⟩
    obtain ⟨row, hrow, heq⟩ := List.mem_map.1 hmem
    obtain ⟨hname, rfl⟩ := Prod.mk.inj heq
    exact hne ((hiff row hrow).1 hname)
  · intro hfree row hrow
    have hmem : (row.name, row.id) ∈ (tableAfter acts).keys := List.mem_map.2 ⟨row, hrow, rfl⟩
    constructor
    · intro hname
      by_contra hne
      exact hfree ⟨row.id, hname ▸ hmem, hne⟩
    · intro hid
      exact keysOwned_tableAfter acts n row.name (hid ▸ hmem)

end Histories

def openstack4 : Agents Unit where
  settings _ := {
    clusterId := "0b0c5d0e-5a1f-4f0e-9d57-6a3a5c0f6f44"
    clusterName := "openstack-4"
    clusterGrpcAddr := "os4-ctrl:50051"
    authUrl := "http://os4:5000/v3"
    regionName := "RegionOne"
    asNumber := 65004 }
  ids := fun _ _ _ => rfl
  names := fun _ _ _ => rfl

def openstack4Body : ClusterCreate where
  name := "openstack-4"
  authUrl := "http://os4:5000/v3"
  grpcAddr := "os4-ctrl:50051"
  bgpAs := some 65004

/-- `openstack cnf cluster register openstack-4`, before its agent starts. -/
def registeredByHand : List (ClusterWrite openstack4) :=
  [.post openstack4Body "7d9f2b52-33c1-4f86-8f5b-1d8f6f1f2a90" fun () => by decide]

theorem not_self_registered :
    ¬ SelfRegistered (openstack4.settings ())
      (upsertSelfCluster (openstack4.settings ()) (tableAfter registeredByHand)) := by
  rintro ⟨t, row, hok, -⟩
  have hrefused : upsertSelfCluster (openstack4.settings ()) (tableAfter registeredByHand) =
      .error uniqueViolation := rfl
  rw [hrefused] at hok
  cases hok

end NovaFederation
