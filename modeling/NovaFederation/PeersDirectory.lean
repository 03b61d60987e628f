import NovaFederation.Failover
import NovaFederation.PyString
import NovaFederation.Restarts

/-!
# The directory of the peers

An agent puts its address before it joins the election and never takes it back. So the directory
keeps every agent that has ever started, and a master that somebody has observed is always in it,
whoever holds the key by now.
-/

namespace NovaFederation
open Coroutine Schedule PyString RaftElection
variable {N : Type} {n : N} {node node' : Node N}

/-! ### Names -/

namespace Node

/-- The agent has names of agents only from `K`, and its own is one of them once it has joined. As
master it names itself. -/
structure Informed (K : String → Prop) (node : Node N) : Prop where
  joined : node.election.running = true ∨ node.heartbeat.isSome = true ∨ node.orphans ≠ 0 →
    K node.election.clusterId
  reading : ∀ next masterId, node.heartbeat = some ⟨.readMaster, next, some (.ok masterId)⟩ →
    masterId ≠ "" → K masterId
  observed : node.election.state.masterId ≠ "" → K node.election.state.masterId
  own : node.role = .master → node.election.state.masterId = node.election.clusterId

variable {K : String → Prop} {k : Etcd N}

theorem orphaned (h : node.orphans + node.abandoned ≠ 0) :
    node.heartbeat.isSome = true ∨ node.orphans ≠ 0 := by
  by_cases ho : node.orphans = 0
  · have hab : node.abandoned ≠ 0 := by omega
    unfold abandoned at hab
    split at hab
    · next hjob =>
      rw [hjob]
      exact .inl rfl
    · exact absurd rfl hab
  · exact .inr ho

theorem Informed.congr (hi : node.Informed K) (hagent : node'.agent = node.agent)
    (hheartbeat : node'.heartbeat = node.heartbeat) (horphans : node'.orphans = node.orphans) :
    node'.Informed K := by
  refine ⟨?_, ?_, ?_, ?_⟩
  · rw [Node.election, hagent, hheartbeat, horphans]
    exact hi.joined
  · rw [hheartbeat]
    exact hi.reading
  · rw [Node.election, hagent]
    exact hi.observed
  · rw [Node.role, Node.election, hagent]
    exact hi.own

theorem masterId_observe {L : Type} (e : RaftElection L) (masterId : String) :
    (e.observe masterId).state.masterId = e.state.masterId ∨
      masterId ≠ "" ∧ (e.observe masterId).state.masterId = masterId := by
  unfold RaftElection.observe
  split_ifs with hne
  · exact .inr ⟨hne.1, rfl⟩
  · exact .inl rfl

theorem informed_proceed (node : Node N) {agent : CNFAgent (Lease N)}
    {p : Paused (CNFAgent (Lease N)) PyException AgentCall (AgentCall.Reply (Lease N)) Unit}
    (hid : K agent.election.clusterId)
    (hobserved : agent.election.state.masterId ≠ "" → K agent.election.state.masterId)
    (hown : agent.role = .master →
      agent.election.state.masterId = agent.election.clusterId) :
    (node.proceed (agent, p)).Informed K := by
  cases p with
  | done x => exact ⟨fun _ => hid, nofun, hobserved, hown⟩
  | waiting call next =>
    refine ⟨fun _ => hid, fun next' masterId hjob => ?_, hobserved, hown⟩
    cases hjob

theorem Informed.deliver (hi : node.Informed K) (hs : node.Sound k n)
    (hd : node.deliver = some node') :
    node'.Informed K ∧ node'.election.clusterId = node.election.clusterId := by
  unfold Node.deliver at hd
  split at hd
  · next call next reply hjob =>
    obtain rfl := Option.some.inj hd
    have hid := hi.joined (.inr (.inl (by rw [hjob]; rfl)))
    have hsame (p : Paused (CNFAgent (Lease N)) PyException AgentCall (AgentCall.Reply (Lease N))
        Unit) : (node.proceed (node.agent, p)).Informed K ∧
          (node.proceed (node.agent, p)).election.clusterId = node.election.clusterId :=
      ⟨informed_proceed node hid hi.observed hi.own, by cases p <;> rfl⟩
    have hp := hs.heartbeat _ hjob
    cases call with
    | refreshLease =>
      obtain ⟨-, hnext, -⟩ := hp
      rcases reply with x | ttl
      · obtain ⟨next', -, heq⟩ := hnext.error x node.agent
        rw [heq]
        exact ⟨informed_proceed node hid hi.observed nofun, rfl⟩
      · obtain ⟨x, heq⟩ := hnext.ok ttl node.agent
        rw [heq]
        exact hsame _
    | acquire clusterId =>
      obtain ⟨hrole, -, hnext, -⟩ := hp
      rcases reply with x | ⟨_ | _, lease⟩
      · obtain ⟨x, heq⟩ := hnext.error x node.agent
        rw [heq]
        exact hsame _
      · obtain ⟨next', -, heq⟩ := hnext.lost lease node.agent
        rw [heq]
        exact hsame _
      · obtain ⟨next', -, heq⟩ := hnext.won lease node.agent hrole
        rw [heq]
        exact ⟨informed_proceed node hid (fun _ => hid) fun _ => rfl, rfl⟩
    | readMaster =>
      obtain ⟨hrole, hnext⟩ := hp
      rcases reply with x | masterId
      · obtain ⟨x, heq⟩ := hnext.error x node.agent
        rw [heq]
        exact hsame _
      · obtain ⟨x, heq⟩ := hnext.ok masterId node.agent
        obtain ⟨hr, -, hc⟩ := node.election.observe_grip masterId
        rw [heq]
        refine ⟨informed_proceed node (hc.symm ▸ hid) ?_ fun hm => ?_, hc⟩
        · rcases masterId_observe node.election masterId with hkept | ⟨hne, hnew⟩
          · rw [hkept]
            exact hi.observed
          · rw [hnew]
            exact fun _ => hi.reading next masterId hjob hne
        · exact absurd ((hr.trans hrole).symm.trans hm) (by simp)
    | writeRole role =>
      obtain ⟨-, hnext, -⟩ := hp
      rcases reply with x | _
      · obtain ⟨x, heq⟩ := hnext.error x node.agent
        rw [heq]
        exact hsame _
      · obtain ⟨x, heq⟩ := hnext.ok node.agent
        rw [heq]
        exact ⟨informed_proceed node hid hi.observed hi.own, rfl⟩
    | initDb => exact hp.elim
    | upsertSelfCluster => exact hp.elim
    | registerPeer clusterId grpcAddr => exact hp.elim
    | startGrpc => exact hp.elim
    | revokeLease => exact hp.elim
  · cases hd

theorem Informed.beat (hi : node.Informed K) (hs : node.Sound k n)
    (hb : node.beat = some node') :
    node'.Informed K ∧ node'.election.clusterId = node.election.clusterId := by
  have hsteady := (beat_cases hs hb).2
  unfold Node.beat at hb
  split_ifs at hb with hready
  obtain rfl := Option.some.inj hb
  refine ⟨?_, hsteady.clusterId⟩
  have hid := hi.joined (.inl hready.1)
  by_cases hm : node.role = .master ∧ node.election.lease.isSome = true
  · obtain ⟨next, -, heq⟩ := settle_master hm
    rw [heq]
    exact informed_proceed _ hid hi.observed hi.own
  · obtain ⟨next, -, heq⟩ := settle_worker hm
    rw [heq]
    exact informed_proceed _ hid hi.observed hi.own

theorem Informed.submit (hi : node.Informed K) {agent : CNFAgent (Lease N)}
    (hagent : agent = node.agent)
    (p : Paused (CNFAgent (Lease N)) PyException AgentCall (AgentCall.Reply (Lease N)) Unit) :
    (node.submit (agent, p)).Informed K := by
  obtain ⟨hsame, hheartbeat, horphans⟩ := submit_frame node agent p
  exact hi.congr (hsame.trans hagent) hheartbeat horphans

theorem Informed.stop (hi : node.Informed K) : node.stop.Informed K := by
  obtain ⟨hagent, -⟩ := settle_stop node.agent
  unfold Node.stop
  rcases hq : settle node.agent RaftElection.stop with ⟨t, p⟩
  rw [hq] at hagent
  obtain rfl : t = _ := hagent
  have hstopped : Node.Informed K { node with
      agent := { node.agent with election := { node.agent.election with running := false } }
      heartbeat := none
      orphans := node.orphans + node.abandoned } := by
    refine ⟨?_, nofun, hi.observed, hi.own⟩
    rintro (hr | hb | ho)
    · cases hr
    · cases hb
    · exact hi.joined (.inr (orphaned ho))
  exact hstopped.submit rfl p

end Node

namespace Electorate
variable {K : String → Prop} {s s' : Electorate N} {a : ElectionAct N}

/-- Names of agents come from `K` alone. -/
structure Informed (K : String → Prop) (s : Electorate N) : Prop where
  nodes : ∀ n, (s.nodes n).Informed K
  entry : ∀ e ∈ s.etcd.entry, K e.1

theorem Informed.mono {K' : String → Prop} (hi : s.Informed K) (hK : ∀ id, K id → K' id) :
    s.Informed K' where
  nodes := fun n => {
    joined := fun hj => hK _ ((hi.nodes n).joined hj)
    reading := fun next masterId hjob hne => hK _ ((hi.nodes n).reading next masterId hjob hne)
    observed := fun hne => hK _ ((hi.nodes n).observed hne)
    own := (hi.nodes n).own }
  entry := fun e he => hK _ (hi.entry e he)

theorem entry_acquire {k : Etcd N} {clusterId : String} (hk : ∀ e ∈ k.entry, K e.1)
    (hid : K clusterId) : ∀ e ∈ (k.acquire n clusterId).entry, K e.1 := by
  intro e he
  unfold LeasedKey.acquire at he
  split at he
  · obtain rfl := Option.some.inj he
    exact hid
  · exact hk e he

variable [DecidableEq N]

theorem entry_drop {k : Etcd N} (hk : ∀ e ∈ k.entry, K e.1) (l : Lease N) :
    ∀ e ∈ (k.drop l).entry, K e.1 := by
  intro e he
  unfold LeasedKey.drop at he
  split at he
  · cases he
  · exact hk e he

theorem Informed.put (hi : s.Informed K) {k : Etcd N} (hk : ∀ e ∈ k.entry, K e.1)
    (hn : node.Informed K) : Informed K ({ s with etcd := k }.put n node) :=
  ⟨forall_put (P := fun _ node => node.Informed K) hn hi.nodes, hk⟩

theorem Informed.serve (hi : s.Informed K) (hs : s.Sound) {fault : Option Fault} {remaining : ℕ}
    (h : s.serve n fault remaining = some s') : s'.Informed K := by
  unfold Electorate.serve at h
  split at h
  · next call next hjob =>
    obtain rfl := Option.some.inj h
    have hn := hi.nodes n
    have hid := hn.joined (.inr (.inl (by rw [hjob]; rfl)))
    have hp := (hs n).heartbeat _ hjob
    refine hi.put ?_ ⟨fun _ => hid, ?_, hn.observed, hn.own⟩
    · cases call with
      | acquire clusterId =>
        obtain ⟨-, rfl, -⟩ := hp
        rcases fault with _ | _ | _
        · exact entry_acquire hi.entry hid
        · exact hi.entry
        · exact entry_acquire hi.entry hid
      | refreshLease =>
        have hsame : (faulty fault n (s.nodes n).agent remaining s.etcd .refreshLease).1 =
            s.etcd := by
          rcases fault with _ | _ | _ <;> simp only [faulty, execute] <;> split <;> rfl
        rw [hsame]
        exact hi.entry
      | revokeLease => exact hp.elim
      | _ => rcases fault with _ | _ | _ <;> exact hi.entry
    · intro next' masterId hread hne
      cases call with
      | readMaster =>
        have hreply : (faulty fault n (s.nodes n).agent remaining s.etcd .readMaster).2 =
            .ok masterId := by
          simpa using (Suspended.mk.inj (Option.some.inj hread)).2.2
        have hex := congrArg Prod.snd (faulty_ok hreply)
        rw [hreply] at hex
        obtain rfl := Except.ok.inj hex
        cases hentry : s.etcd.entry with
        | none =>
          rw [hentry] at hne
          exact absurd rfl hne
        | some e => exact hi.entry e hentry
      | _ => cases hread
  · cases h

theorem Informed.finish (hi : s.Informed K) (hs : s.Sound) {i : ℕ} {fault : Option Fault}
    (h : s.finish n i fault = some s') : s'.Informed K := by
  unfold Electorate.finish at h
  split at h
  · next job hjob =>
    obtain rfl := Option.some.inj h
    have hrev := (hs n).requests job (List.mem_of_getElem? hjob)
    obtain ⟨call, next, r⟩ := job
    cases hrev with
    | waiting _ hnext =>
      obtain ⟨x, hx⟩ := hnext (faulty fault n (s.nodes n).agent 0 s.etcd .revokeLease).2
        (s.nodes n).agent
      dsimp only
      rw [hx]
      refine hi.put ?_ ((hi.nodes n).congr rfl rfl rfl)
      have hdrop : ∀ e ∈ (execute n (s.nodes n).agent 0 s.etcd .revokeLease).1.entry, K e.1 := by
        simp only [execute]
        split
        · exact entry_drop hi.entry _
        · exact hi.entry
      rcases fault with _ | _ | _
      · exact hdrop
      · exact hi.entry
      · exact hdrop
  · cases h

theorem informed_step (hs : s.Sound) (h : s.step a = some s') (hi : s.Informed K) :
    s'.Informed K ∧ ∀ n, (s'.nodes n).election.clusterId = (s.nodes n).election.clusterId := by
  have hids : (∀ n, a ≠ .deliver n) →
      ∀ n, (s'.nodes n).election.clusterId = (s.nodes n).election.clusterId := by
    intro hno n
    rcases step_cases hs h with ⟨m, _, rfl, -⟩ | ⟨-, -, -, hst⟩
    · exact absurd rfl (hno m)
    · exact (hst n).clusterId
  cases a with
  | deliver n =>
    obtain ⟨node, hd, rfl⟩ := Option.map_eq_some_iff.1 h
    obtain ⟨hn, hc⟩ := (hi.nodes n).deliver (hs n) hd
    exact ⟨hi.put hi.entry hn, forall_put
      (P := fun m node => node.election.clusterId = (s.nodes m).election.clusterId) hc
      fun _ => rfl⟩
  | beat n =>
    obtain ⟨node, hb, rfl⟩ := Option.map_eq_some_iff.1 h
    exact ⟨hi.put hi.entry ((hi.nodes n).beat (hs n) hb).1, hids (by simp)⟩
  | serve n fault remaining => exact ⟨hi.serve hs h, hids (by simp)⟩
  | forceElect n target =>
    obtain rfl := Option.some.inj h
    obtain ⟨hagent, -⟩ := Revoking.map (settle_forceElect (s.nodes n).agent target) fun _ => ()
    exact ⟨hi.put hi.entry ((hi.nodes n).submit hagent _), hids (by simp)⟩
  | stop n =>
    obtain rfl := Option.some.inj h
    exact ⟨hi.put hi.entry (hi.nodes n).stop, hids (by simp)⟩
  | finish n i fault => exact ⟨hi.finish hs h, hids (by simp)⟩
  | orphan n =>
    refine ⟨?_, hids (by simp)⟩
    simp only [step, Electorate.orphan] at h
    split_ifs at h with ho
    obtain rfl := Option.some.inj h
    have hid := (hi.nodes n).joined (.inr (.inr ho))
    exact hi.put (entry_acquire hi.entry hid)
      ⟨fun _ => hid, (hi.nodes n).reading, (hi.nodes n).observed, (hi.nodes n).own⟩
  | expire lease =>
    refine ⟨?_, hids (by simp)⟩
    obtain rfl := Option.some.inj h
    exact ⟨hi.nodes, entry_drop hi.entry lease⟩

end Electorate

/-! ### Keys -/

namespace RaftElection

def getPrefix (entries : List (String × String)) (pre : String) : List (String × String) :=
  entries.filter fun entry => startsWith entry.1 pre

def getPeers (entries : List (String × String)) : AList fun _ : String => String :=
  (getPrefix entries peersPrefix).foldl
    (fun peers entry => peers.insert (removePrefix entry.1 peersPrefix) entry.2) ∅

end RaftElection

theorem peerKey_removePrefix {key : String} (h : startsWith key peersPrefix = true) :
    peerKey (removePrefix key peersPrefix) = key := by
  obtain ⟨rest, hrest⟩ := of_decide_eq_true h
  have hkey : key = peersPrefix ++ String.ofList rest := by
    rw [← String.toList_inj, String.toList_append, String.toList_ofList, hrest]
  rw [hkey, removePrefix_append, peerKey]

theorem startsWith_peerKey (clusterId : String) :
    startsWith (peerKey clusterId) peersPrefix = true :=
  decide_eq_true (by rw [peerKey, String.toList_append]; exact List.prefix_append _ _)

theorem startsWith_masterKey : startsWith masterKey peersPrefix = false := by decide

theorem mem_lookup_peers {entries : List (String × String)} {clusterId addr : String}
    {peers : AList fun _ : String => String}
    (hpre : ∀ entry ∈ entries, startsWith entry.1 peersPrefix = true)
    (hkeys : (entries.map Prod.fst).Nodup) :
    addr ∈ (entries.foldl (fun peers entry =>
        peers.insert (removePrefix entry.1 peersPrefix) entry.2) peers).lookup clusterId ↔
      (peerKey clusterId, addr) ∈ entries ∨
        addr ∈ peers.lookup clusterId ∧ ∀ entry ∈ entries, entry.1 ≠ peerKey clusterId := by
  induction entries generalizing peers with
  | nil => simp
  | cons entry entries ih =>
    obtain ⟨hentry, hpre⟩ := List.forall_mem_cons.1 hpre
    rw [List.map_cons, List.nodup_cons] at hkeys
    rw [List.foldl_cons, ih hpre hkeys.2]
    by_cases heq : entry.1 = peerKey clusterId
    · have hname : removePrefix entry.1 peersPrefix = clusterId := by
        rw [heq, peerKey, removePrefix_append]
      have hother : ∀ e ∈ entries, e.1 ≠ peerKey clusterId := by
        intro e he hsame
        exact hkeys.1 (heq.trans hsame.symm ▸ List.mem_map_of_mem he)
      have hgone : (peerKey clusterId, addr) ∉ entries := fun he => hother _ he rfl
      rw [hname, AList.lookup_insert, Option.mem_some_iff]
      constructor
      · rintro (he | ⟨rfl, -⟩)
        · exact absurd he hgone
        · exact .inl (heq ▸ List.mem_cons_self)
      · rintro (he | ⟨-, hno⟩)
        · rcases List.mem_cons.1 he with rfl | he
          · exact .inr ⟨rfl, hother⟩
          · exact absurd he hgone
        · exact absurd heq (hno entry List.mem_cons_self)
    · have hname : clusterId ≠ removePrefix entry.1 peersPrefix := by
        rintro rfl
        exact heq (peerKey_removePrefix hentry).symm
      rw [AList.lookup_insert_ne hname, List.mem_cons, List.forall_mem_cons]
      have hne : (peerKey clusterId, addr) ≠ entry := by
        rintro rfl
        exact heq rfl
      simp only [hne, false_or, ne_eq, heq, not_false_eq_true, true_and]

namespace Registry

def entries (s : Registry N) : List (String × String) :=
  (s.electorate.etcd.entry.map fun e => (masterKey, e.1)).toList ++
    s.keys.entries.map fun entry => (entry.1, entry.2)

/-- The directory has the agent of this id. -/
def Enrolled (s : Registry N) (clusterId : String) : Prop :=
  (s.keys.lookup (peerKey clusterId)).isSome = true

/-- The master key is not in the directory. -/
theorem mem_getPrefix_iff {s : Registry N} {clusterId addr : String} :
    (peerKey clusterId, addr) ∈ getPrefix s.entries peersPrefix ↔
      addr ∈ s.keys.lookup (peerKey clusterId) := by
  have hmaster : masterKey ≠ peerKey clusterId := by
    intro heq
    have hpre := startsWith_peerKey clusterId
    rw [← heq, startsWith_masterKey] at hpre
    cases hpre
  rw [getPrefix, List.mem_filter, AList.mem_lookup_iff, entries, List.mem_append]
  constructor
  · rintro ⟨he | he, -⟩
    · obtain ⟨e, -, he⟩ := Option.map_eq_some_iff.1 (Option.mem_toList.1 he)
      exact absurd (congrArg Prod.fst he) hmaster
    · obtain ⟨entry, hentry, he⟩ := List.mem_map.1 he
      obtain ⟨hkey, haddr⟩ := Prod.mk.inj he
      rw [← hkey, ← haddr]
      exact hentry
  · intro he
    exact ⟨.inr (List.mem_map.2 ⟨_, he, rfl⟩), startsWith_peerKey clusterId⟩

theorem nodup_getPrefix (s : Registry N) :
    ((getPrefix s.entries peersPrefix).map Prod.fst).Nodup := by
  have hmaster : ((s.electorate.etcd.entry.map fun e => (masterKey, e.1)).toList.filter
      fun entry => startsWith entry.1 peersPrefix) = [] := by
    cases s.electorate.etcd.entry with
    | none => rfl
    | some e => exact List.filter_cons_of_neg (Bool.eq_false_iff.1 startsWith_masterKey)
  rw [getPrefix, entries, List.filter_append, hmaster, List.nil_append]
  refine List.Nodup.sublist (List.filter_sublist.map Prod.fst) ?_
  rw [List.map_map]
  exact s.keys.nodupKeys

/-- What `get_peers` answers is what the agents have put. -/
theorem lookup_getPeers (s : Registry N) (clusterId : String) :
    (getPeers s.entries).lookup clusterId = s.keys.lookup (peerKey clusterId) := by
  apply Option.ext
  intro addr
  have hpre : ∀ entry ∈ getPrefix s.entries peersPrefix,
      startsWith entry.1 peersPrefix = true := fun _ he => (List.mem_filter.1 he).2
  rw [getPeers, ← Option.mem_def, mem_lookup_peers hpre s.nodup_getPrefix, mem_getPrefix_iff]
  simp

/-! ### What is announced -/

def announced (clusterId : N → String) (id : String) : List (RegistryAct N) → Option String
  | [] => none
  | .start n grpcAddr fault :: acts =>
    (announced clusterId id acts).or
      (if clusterId n = id ∧ fault ≠ some .request then some grpcAddr else none)
  | _ :: acts => announced clusterId id acts

theorem peerKey_inj {id id' : String} (h : peerKey id = peerKey id') : id = id' := by
  have hid := removePrefix_append peersPrefix id
  rw [← peerKey, h, peerKey, removePrefix_append] at hid
  exact hid.symm

theorem lookup_putPeer (keys : AList fun _ : String => String) (fault : Option Fault)
    (clusterId grpcAddr id : String) :
    ((putPeer keys fault clusterId grpcAddr).1).lookup (peerKey id) =
      (if clusterId = id ∧ fault ≠ some .request then some grpcAddr else none).or
        (keys.lookup (peerKey id)) := by
  have hinsert : (keys.insert (peerKey clusterId) grpcAddr).lookup (peerKey id) =
      (if clusterId = id then some grpcAddr else none).or (keys.lookup (peerKey id)) := by
    by_cases hid : clusterId = id
    · rw [hid, AList.lookup_insert, if_pos rfl, Option.some_or]
    · have hne : peerKey id ≠ peerKey clusterId := fun heq => hid (peerKey_inj heq).symm
      rw [AList.lookup_insert_ne hne, if_neg hid, Option.none_or]
  rcases fault with _ | _ | _
  · simpa [putPeer] using hinsert
  · simp [putPeer]
  · simpa [putPeer] using hinsert

variable {s s' : Registry N} {a : RegistryAct N}

/-- What is known of the agents and the directory at any time. -/
structure Informed (clusterId : N → String) (s : Registry N) : Prop where
  sound : s.electorate.Sound
  names : s.electorate.Informed s.Enrolled
  ids : ∀ n, (s.electorate.nodes n).election.clusterId = clusterId n

theorem enrolled_putPeer {fault : Option Fault} {clusterId addr id : String}
    (hkeys : s'.keys = (putPeer s.keys fault clusterId addr).1)
    (hl : s.Enrolled id ∨ clusterId = id ∧ fault = none) : s'.Enrolled id := by
  unfold Enrolled at *
  rw [hkeys, lookup_putPeer, Option.isSome_or, Bool.or_eq_true]
  rcases hl with hl | ⟨rfl, rfl⟩
  · exact .inr hl
  · exact .inl (by simp)

theorem informed_respawned {K : String → Prop} (hi : node.Informed K) (addr : String)
    {running : Bool} (hK : running = true → K node.election.clusterId) :
    (node.respawned addr running).Informed K := by
  refine ⟨?_, nofun, fun hne => absurd rfl hne, nofun⟩
  rintro (hr | hb | ho)
  · exact hK hr
  · cases hb
  · exact hi.joined (.inr (Node.orphaned ho))

theorem informed_initial (clusterId : N → String) : Informed clusterId (initial clusterId) where
  sound := sound_initial clusterId
  names := ⟨fun n => ⟨by simp [initial], nofun, fun hne => absurd rfl hne, nofun⟩,
    fun _ he => nomatch he⟩
  ids := fun _ => rfl

variable [DecidableEq N]

theorem Informed.step {clusterId : N → String} (hi : Informed clusterId s)
    (h : s.step a = some s') : Informed clusterId s' := by
  have hsound := sound_step hi.sound h
  cases a with
  | start n addr fault =>
    obtain ⟨hkeys, heq⟩ := register_eq_some h
    have hnames : s.electorate.Informed s'.Enrolled :=
      hi.names.mono fun _ hl => enrolled_putPeer hkeys (.inl hl)
    refine ⟨hsound, ?_, ?_⟩
    · rw [heq]
      refine hnames.put hnames.entry (informed_respawned (hnames.nodes n) addr fun hr => ?_)
      exact enrolled_putPeer hkeys (.inr ⟨rfl, Option.isNone_iff_eq_none.1 hr⟩)
    · rw [heq]
      exact Electorate.forall_put (P := fun n node => node.election.clusterId = clusterId n)
        (hi.ids n) hi.ids
  | elect b =>
    obtain ⟨electorate, hb, rfl⟩ := Option.map_eq_some_iff.1 h
    obtain ⟨hnames, hids⟩ := Electorate.informed_step hi.sound hb hi.names
    exact ⟨hsound, hnames, fun n => (hids n).trans (hi.ids n)⟩
  | crash n =>
    obtain rfl := Option.some.inj h
    refine ⟨hsound, ?_, ?_⟩
    · exact hi.names.put hi.names.entry (informed_respawned (hi.names.nodes n) "" nofun)
    · exact Electorate.forall_put (P := fun n node => node.election.clusterId = clusterId n)
        (hi.ids n) hi.ids

theorem Informed.run {clusterId : N → String} {acts : List (RegistryAct N)}
    (hi : Informed clusterId s) (hrun : arrive Registry.step s acts = some s') :
    Informed clusterId s' := by
  have hlead : Leads Registry.step (fun _ => true) s s' := ⟨acts, fun _ _ => rfl, hrun⟩
  exact hlead.keeps (Informed clusterId) (fun _ _ _ _ h hi => hi.step h) hi

theorem lookup_step {clusterId : N → String} (hi : Informed clusterId s)
    (h : s.step a = some s') (id : String) :
    s'.keys.lookup (peerKey id) =
      (announced clusterId id [a]).or (s.keys.lookup (peerKey id)) := by
  cases a with
  | start n addr fault =>
    obtain ⟨hkeys, -⟩ := register_eq_some h
    rw [hkeys, lookup_putPeer, hi.ids n]
    rfl
  | elect b =>
    obtain ⟨electorate, -, rfl⟩ := Option.map_eq_some_iff.1 h
    rfl
  | crash n =>
    obtain rfl := Option.some.inj h
    rfl

omit [DecidableEq N] in
theorem announced_cons (clusterId : N → String) (id : String) (a : RegistryAct N)
    (acts : List (RegistryAct N)) : announced clusterId id (a :: acts) =
      (announced clusterId id acts).or (announced clusterId id [a]) := by
  cases a with
  | start n addr fault => simp [announced]
  | elect b => simp [announced]
  | crash n => simp [announced]

theorem lookup_run {clusterId : N → String} {acts : List (RegistryAct N)}
    (hi : Informed clusterId s) (hrun : arrive Registry.step s acts = some s') (id : String) :
    s'.keys.lookup (peerKey id) =
      (announced clusterId id acts).or (s.keys.lookup (peerKey id)) := by
  induction acts generalizing s with
  | nil =>
    obtain rfl : s = s' := Option.some.inj hrun
    rfl
  | cons a acts ih =>
    rw [arrive_cons] at hrun
    obtain ⟨t, ht, hrun⟩ := Option.bind_eq_some_iff.1 hrun
    rw [ih (hi.step ht) hrun, lookup_step hi ht, announced_cons clusterId id a acts,
      Option.or_assoc]

end Registry

/-! ### Asking for the master -/

structure MasterInfo where
  masterClusterId : String
  thisClusterId : String
  thisClusterRole : NodeRole
  peers : AList fun _ : String => String

/-- The peers are those of the state `s`, in which etcd was asked, and the rest is of the state `t`
in which its answer has come. -/
def showMaster (s t : Registry N) (n : N) : MasterInfo where
  masterClusterId := (t.electorate.nodes n).election.state.masterId
  thisClusterId := (t.electorate.nodes n).election.clusterId
  thisClusterRole := (t.electorate.nodes n).role
  peers := getPeers s.entries

open Registry in
/-- In every run of agents that start, are elected and crash, `show_master` lists the addresses that
were put last. The master that it names is one of these peers or has started since they were
listed, and an agent that says it is the master names itself. -/
theorem show_master_listed [DecidableEq N] (clusterId : N → String)
    (acts acts' : List (RegistryAct N)) (s t : Registry N)
    (hrun : arrive Registry.step (initial clusterId) acts = some s)
    (hrun' : arrive Registry.step s acts' = some t) (n : N) :
    (∀ id, (showMaster s t n).peers.lookup id = announced clusterId id acts) ∧
    ((showMaster s t n).masterClusterId ≠ "" →
      ((showMaster s t n).peers.lookup (showMaster s t n).masterClusterId).isSome = true ∨
        (announced clusterId (showMaster s t n).masterClusterId acts').isSome = true) ∧
    ((showMaster s t n).thisClusterRole = .master →
      (showMaster s t n).masterClusterId = (showMaster s t n).thisClusterId) := by
  have hs := (informed_initial clusterId).run hrun
  have ht := hs.run hrun'
  refine ⟨fun id => ?_, fun hne => ?_, (ht.names.nodes n).own⟩
  · rw [showMaster, lookup_getPeers, lookup_run (informed_initial clusterId) hrun id]
    simp [initial]
  · have hlisted : t.Enrolled (showMaster s t n).masterClusterId := (ht.names.nodes n).observed hne
    unfold Enrolled at hlisted
    rw [lookup_run hs hrun', Option.isSome_or, Bool.or_eq_true, ← lookup_getPeers] at hlisted
    exact hlisted.symm

/-- The second agent is the only one so far. -/
def alone : Option (Registry Bool) :=
  arrive Registry.step (.initial fun n => if n then "iad" else "fra")
    [.start false "10.0.0.2:50051" (some .request), .start false "10.0.0.2:50051" none]

/-- The first one starts and wins the key, and the second one hears of it. The first one then
crashes and comes back under another address. -/
def joining : List (RegistryAct Bool) :=
  [.start true "10.0.0.1:50051" none, .elect (.beat true), .elect (.serve true none 9),
    .elect (.deliver true), .elect (.beat false), .elect (.serve false none 9),
    .elect (.deliver false), .elect (.serve false none 9), .elect (.deliver false), .crash true,
    .start true "10.0.0.3:50051" (some .reply)]

open Registry in
theorem show_master_listed_moved :
    let s := alone.get (by decide +kernel)
    let t := (arrive Registry.step s joining).get (by decide +kernel)
    (showMaster s t false).peers.lookup "fra" = some "10.0.0.2:50051" ∧
      (showMaster s t false).masterClusterId = "iad" ∧
      (showMaster s t false).peers.lookup "iad" = none ∧
      (announced (fun n => if n then "iad" else "fra") "iad" joining).isSome = true := by
  intro s t
  have hrun : alone = some s := (Option.some_get _).symm
  have hrun' : arrive Registry.step s joining = some t := (Option.some_get _).symm
  obtain ⟨hlookup, hnamed, -⟩ := show_master_listed _ _ joining s t hrun hrun' false
  have hmaster : (showMaster s t false).masterClusterId = "iad" := by decide +kernel
  have hnone : (showMaster s t false).peers.lookup "iad" = none :=
    (hlookup "iad").trans (by decide)
  refine ⟨(hlookup "fra").trans (by decide), hmaster, hnone, ?_⟩
  rw [hmaster, hnone] at hnamed
  exact (hnamed (by decide)).resolve_left (by simp)

end NovaFederation
