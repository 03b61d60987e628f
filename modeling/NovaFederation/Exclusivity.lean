import Mathlib.Data.Fintype.Defs
import NovaFederation.Leadership

/-!
# Two masters

As long as no answer without time to live is delivered, the grip of every agent on the key is
fresh, and only one fresh grip is possible. A master that is told of its end and goes on breaks
this at once.
-/

namespace NovaFederation
open Coroutine Schedule
variable {N : Type} {n : N} {k k' : Etcd N} {node node' : Node N}

namespace Node

theorem master_of_expired (hs : node.Sound k n) (he : node.expired = true) :
    node.role = .master := by
  unfold expired at he
  split at he
  · next next' ttl hjob => exact (hs.heartbeat _ hjob).1
  · cases he

/-- Of a master that has completed a heartbeat since the key last changed, etcd has the key. -/
def Fresh (k : Etcd N) (node : Node N) : Prop :=
  node.role = .master → ∀ e ∈ node.last, e.revision = k.revision →
    ∃ lease ∈ node.election.lease, k.entry = some (node.election.clusterId, lease)

theorem Fresh.steady (hf : Fresh k node) (hs : node.Sound k n) (hk : k.Advances k')
    (hst : Steady node node') : Fresh k' node' := by
  unfold Fresh
  rw [hst.role, hst.last, hst.lease, hst.clusterId]
  intro hm e he hrev
  have hek : e.revision = k.revision :=
    Nat.le_antisymm (hs.last e he).revision (hrev ▸ hk.revision)
  obtain ⟨lease, hl, hentry⟩ := hf hm e he hek
  exact ⟨lease, hl, (hk.entry (hek.symm.trans hrev)).symm.trans hentry⟩

theorem fresh_of_completed (hs : node.Sound k n) (hc : Completed node node')
    (hexp : node.expired = false) : Fresh k node' := by
  unfold Fresh
  rw [hc.role, hc.last, hc.lease, hc.clusterId]
  intro hm e he hrev
  obtain ⟨e', he', lease, hl, -, hentry⟩ := (hc.held hm).1 hexp
  obtain rfl : e = e' := Option.some.inj (he.symm.trans he')
  exact ⟨lease, hl, ((hs.seen e he).entry hrev).symm.trans hentry⟩

theorem fresh_of_deliver (hs : node.Sound k n) (hd : node.deliver = some node')
    (hexp : node.expired = false) : Fresh k node' := by
  rcases deliver_cases hs hd with hc | ⟨hc, -⟩
  · exact fresh_of_completed hs hc hexp
  · intro hm e he hrev
    have hlt := hc.fresh hm e he
    exact absurd hrev (Nat.ne_of_lt hlt)

theorem sound_of_deliver (hs : node.Sound k n) (hd : node.deliver = some node') :
    node'.Sound k n := by
  rcases deliver_cases hs hd with hc | ⟨-, hn⟩
  · exact hc.sound hs
  · exact hn

end Node
namespace Electorate
variable {s s' : Electorate N} {a : ElectionAct N}

def Sound (s : Electorate N) : Prop := ∀ n, (s.nodes n).Sound s.etcd n

theorem unique_of_fresh (hs : s.Sound) (hf : ∀ n, Node.Fresh s.etcd (s.nodes n)) {n m : N}
    (hn : s.Recent n) (hm : s.Recent m) (hnm : (s.nodes n).role = .master)
    (hmm : (s.nodes m).role = .master) : n = m := by
  obtain ⟨e, he, hrev⟩ := hn
  obtain ⟨e', he', hrev'⟩ := hm
  obtain ⟨lease, hl, hentry⟩ := hf n hnm e he hrev
  obtain ⟨lease', hl', hentry'⟩ := hf m hmm e' he' hrev'
  have heq : lease = lease' := congrArg Prod.snd (Option.some.inj (hentry.symm.trans hentry'))
  calc n = lease.holder := ((hs n).guards lease hl).1.symm
    _ = lease'.holder := by rw [heq]
    _ = m := ((hs m).guards lease' hl').1

theorem sound_start (clusterId grpcAddr : N → String) : (start clusterId grpcAddr).Sound := by
  intro n
  have hheartbeat : ((start clusterId grpcAddr).nodes n).heartbeat = none := rfl
  have hrequests : ((start clusterId grpcAddr).nodes n).requests = [] := rfl
  refine ⟨by simp [start], nofun, nofun, nofun, ?_, ?_⟩
  · simp [hheartbeat]
  · simp [hrequests]

end Electorate

variable [DecidableEq N]

namespace Electorate
variable {s s' : Electorate N} {a : ElectionAct N}

theorem forall_put {P : N → Node N → Prop} (hn : P n node) (hm : ∀ m, P m (s.nodes m)) :
    ∀ m, P m ((s.put n node).nodes m) := by
  intro m
  by_cases hmn : m = n
  · subst hmn
    simpa [put] using hn
  · simpa [put, hmn] using hm m

theorem nodes_put (s : Electorate N) (n : N) (node : Node N) : (s.put n node).nodes n = node := by
  simp [put]

theorem sound_put (hs : s.Sound) (hk : s.etcd.Advances k) (hn : node.Sound k n) :
    ({ s with etcd := k }.put n node).Sound :=
  forall_put (P := fun m node => node.Sound k m) hn fun m => (hs m).advance hk

theorem steady_put (hn : Node.Steady (s.nodes n) node) :
    ∀ m, Node.Steady (s.nodes m) ((s.put n node).nodes m) :=
  forall_put (P := fun m node => Node.Steady (s.nodes m) node) hn fun _ => .refl _

/-- What a step can do: an agent takes an answer, or nobody's grip changes. -/
theorem step_cases (hs : s.Sound) (h : s.step a = some s') :
    (∃ n node, a = .deliver n ∧ (s.nodes n).deliver = some node ∧ s' = s.put n node) ∨
    (∀ n, a ≠ .deliver n) ∧ s'.Sound ∧ s.etcd.Advances s'.etcd ∧
      ∀ m, Node.Steady (s.nodes m) (s'.nodes m) := by
  cases a with
  | deliver n =>
    obtain ⟨node, hd, rfl⟩ := Option.map_eq_some_iff.1 h
    exact .inl ⟨n, node, rfl, hd, rfl⟩
  | beat n =>
    obtain ⟨node, hb, rfl⟩ := Option.map_eq_some_iff.1 h
    obtain ⟨hn, hst⟩ := Node.beat_cases (hs n) hb
    exact .inr ⟨nofun, sound_put hs (.refl _) hn, .refl _, steady_put hst⟩
  | serve n fault remaining =>
    simp only [step, serve] at h
    split at h
    · next call next hjob =>
      obtain rfl := Option.some.inj h
      exact .inr ⟨nofun, sound_put hs (advances_faulty _ _ _ _ _ _)
        (Node.sound_served (hs n) hjob fault remaining), advances_faulty _ _ _ _ _ _,
        steady_put ⟨rfl, rfl, rfl, rfl⟩⟩
    · cases h
  | forceElect n target =>
    obtain rfl := Option.some.inj h
    obtain ⟨hn, hst⟩ := Node.forceElect_cases (hs n) target
    exact .inr ⟨nofun, sound_put hs (.refl _) hn, .refl _, steady_put hst⟩
  | stop n =>
    obtain rfl := Option.some.inj h
    obtain ⟨hn, hst⟩ := Node.stop_cases (hs n)
    exact .inr ⟨nofun, sound_put hs (.refl _) hn, .refl _, steady_put hst⟩
  | finish n i fault =>
    simp only [step, finish] at h
    split at h
    · next job hjob =>
      obtain rfl := Option.some.inj h
      have hk := advances_faulty fault n (s.nodes n).agent 0 s.etcd job.call
      obtain ⟨hn, hst⟩ := Node.finish_cases ((hs n).advance hk) hjob
        (faulty fault n (s.nodes n).agent 0 s.etcd job.call).2
      exact .inr ⟨nofun, sound_put hs hk hn, hk, steady_put hst⟩
    · cases h
  | orphan n =>
    simp only [step, orphan] at h
    split_ifs at h
    obtain rfl := Option.some.inj h
    have hk := LeasedKey.advances_acquire s.etcd n (s.nodes n).agent.election.clusterId
    have hn := (hs n).advance hk
    exact .inr ⟨nofun, sound_put hs hk ⟨hn.master, hn.guards, hn.seen, hn.last, hn.heartbeat,
      hn.requests⟩, hk, steady_put ⟨rfl, rfl, rfl, rfl⟩⟩
  | expire lease =>
    obtain rfl := Option.some.inj h
    have hk := LeasedKey.advances_drop s.etcd lease
    exact .inr ⟨nofun, fun n => (hs n).advance hk, hk, fun m => .refl _⟩

theorem sound_step (hs : s.Sound) (h : s.step a = some s') : s'.Sound := by
  rcases step_cases hs h with ⟨n, node, rfl, hd, rfl⟩ | ⟨-, hs', -⟩
  · exact sound_put hs (.refl _) (Node.sound_of_deliver (hs n) hd)
  · exact hs'

theorem fresh_step (hs : s.Sound) (hf : ∀ n, Node.Fresh s.etcd (s.nodes n)) (h : s.step a = some s')
    (hr : s.Renewed a s') : ∀ n, Node.Fresh s'.etcd (s'.nodes n) := by
  rcases step_cases hs h with ⟨n, node, rfl, hd, rfl⟩ | ⟨-, -, hk, hst⟩
  · have hn := Node.fresh_of_deliver (hs n) hd (hr n rfl)
    exact forall_put (P := fun _ node => Node.Fresh s.etcd node) hn hf
  · exact fun m => (hf m).steady (hs m) hk (hst m)

theorem exclusive_of_renewed (hs : s.Sound) (hf : ∀ n, Node.Fresh s.etcd (s.nodes n))
    (h : s.step a = some s') (hr : s.Renewed a s') : s.Exclusive a s' := by
  refine ⟨?_, fun n m => unique_of_fresh (sound_step hs h) (fresh_step hs hf h hr)⟩
  rintro n rfl hend hm
  obtain ⟨node, hd, rfl⟩ := Option.map_eq_some_iff.1 h
  rw [nodes_put] at hend hm ⊢
  rcases Node.deliver_cases (hs n) hd with hc | ⟨hc, -⟩
  · rw [hc.role] at hm
    obtain ⟨e, he, lease, hl, hlive, hentry⟩ := (hc.held hm).1 (hr n rfl)
    rw [hc.last]
    refine ⟨e, he, lease, ?_, hlive, ?_⟩
    · rw [hc.lease]
      exact hl
    · rw [hc.clusterId]
      exact hentry
  · rw [Option.isNone_iff_eq_none] at hend
    have hsome := hc.heartbeat
    simp [hend] at hsome

theorem renewed_of_exclusive (hs : s.Sound) (h : s.step a = some s') (he : s.Exclusive a s') :
    s.Renewed a s' := by
  rintro n rfl
  obtain ⟨node, hd, rfl⟩ := Option.map_eq_some_iff.1 h
  have hheld := he.1 n rfl
  rw [nodes_put] at hheld
  rcases Node.deliver_cases (hs n) hd with hc | ⟨hc, -⟩
  · rw [hc.heartbeat, hc.last, hc.role] at hheld
    by_contra hne
    have hm := Node.master_of_expired (hs n) (Bool.eq_true_of_not_eq_false hne)
    obtain ⟨e, hseen, lease, hl, hlive, hentry⟩ := hheld rfl hm
    rw [hc.lease] at hl
    rw [hc.clusterId] at hentry
    exact hne ((hc.held hm).2 ⟨e, hseen, lease, hl, hlive, hentry⟩)
  · exact hc.expired

end Electorate

open Electorate in
/-- A completed heartbeat as master means that etcd has the key, as long as nobody is answered
that its lease has no time left to live. -/
theorem leader_exclusive_iff (clusterId grpcAddr : N → String) (acts : List (ElectionAct N)) :
    Along step Exclusive (start clusterId grpcAddr) acts ↔
      Along step Renewed (start clusterId grpcAddr) acts := by
  have hs := sound_start clusterId grpcAddr
  constructor
  · intro he
    exact he.imp Electorate.Sound
      (fun _ _ _ h hs he => ⟨renewed_of_exclusive hs h he, sound_step hs h⟩) hs
  · intro hr
    refine hr.imp (fun s => s.Sound ∧ ∀ n, Node.Fresh s.etcd (s.nodes n)) ?_ ⟨hs, fun _ => nofun⟩
    rintro _ _ _ h ⟨hs, hf⟩ hr
    exact ⟨exclusive_of_renewed hs hf h hr, sound_step hs h, fresh_step hs hf h hr⟩

instance (s : Electorate N) (n : N) : Decidable (s.Recent n) :=
  inferInstanceAs (Decidable (∃ k ∈ (s.nodes n).last, k.revision = s.etcd.revision))

instance (node : Node N) (k : Etcd N) : Decidable (node.Held k) :=
  inferInstanceAs (Decidable (∃ lease ∈ node.election.lease,
    lease ∈ k.live ∧ k.entry = some (node.election.clusterId, lease)))

instance [Fintype N] (s : Electorate N) (a : ElectionAct N) (s' : Electorate N) :
    Decidable (s.Exclusive a s') :=
  inferInstanceAs (Decidable ((∀ n, a = .deliver n → (s'.nodes n).heartbeat.isNone →
    (s'.nodes n).role = .master → ∃ k ∈ (s'.nodes n).last, (s'.nodes n).Held k) ∧
    ∀ n m, s'.Recent n → s'.Recent m → (s'.nodes n).role = .master →
      (s'.nodes m).role = .master → n = m))

open Electorate in
/-- A master whose lease expires while it is paused loses the key to another agent, and both are
masters after their next heartbeats. -/
theorem not_leader_exclusive : ¬ Along step Exclusive
    (start (fun n => if n then "iad" else "fra") fun _ => "")
    [.beat true, .serve true none 9, .deliver true, .serve true none 0, .deliver true,
      .expire ⟨true, 0⟩, .beat false, .serve false none 9, .deliver false, .serve false none 0,
      .deliver false, .beat true, .serve true none 9, .deliver true] := by
  decide +kernel

end NovaFederation
