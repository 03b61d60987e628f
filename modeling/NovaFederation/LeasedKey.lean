import Mathlib.Tactic.Common
import Mathlib.Data.List.Basic

/-!
# A key that lives as long as its lease

A store grants leases to parties `P` and keeps one key. The key can be put, under a fresh lease,
only while it is absent, and it goes with the lease that it is attached to. `revision` counts
the changes of the key.
-/

/-- A lease is known by the party that asked for it and a number. -/
structure Lease (P : Type) where
  holder : P
  number : ℕ
  deriving DecidableEq

structure LeasedKey (P V : Type) where
  entry : Option (V × Lease P) := none
  live : List (Lease P) := []
  granted : ℕ := 0
  revision : ℕ := 0
  attached : ∀ e, entry = some e → e.2 ∈ live := by simp
  issued : ∀ l ∈ live, l.number < granted := by simp

namespace LeasedKey
variable {P V : Type} {k k' k'' : LeasedKey P V} {v : V} {l : Lease P}

/-- `k'` comes after `k`: the key is the same unless the revision says otherwise. -/
structure Later (k k' : LeasedKey P V) : Prop where
  revision : k.revision ≤ k'.revision
  entry : k.revision = k'.revision → k.entry = k'.entry

theorem Later.refl (k : LeasedKey P V) : Later k k := ⟨Nat.le_refl _, fun _ => rfl⟩

theorem Later.trans (h : Later k k') (h' : Later k' k'') : Later k k'' where
  revision := Nat.le_trans h.revision h'.revision
  entry := by
    intro he
    have heq : k.revision = k'.revision := Nat.le_antisymm h.revision (he ▸ h'.revision)
    exact (h.entry heq).trans (h'.entry (heq ▸ he))

/-- While the lease is live, the key is there with this value. -/
structure Guards (k : LeasedKey P V) (v : V) (l : Lease P) : Prop where
  granted : l.number < k.granted
  entry : l ∈ k.live → k.entry = some (v, l)

/-- `k'` comes after `k` and the leases that guarded the key still do. -/
structure Advances (k k' : LeasedKey P V) : Prop extends Later k k' where
  guards : ∀ v l, Guards k v l → Guards k' v l

theorem Advances.refl (k : LeasedKey P V) : Advances k k := ⟨.refl k, fun _ _ h => h⟩

/-! ### Acquiring the key -/

def nextLease (k : LeasedKey P V) (p : P) : Lease P := ⟨p, k.granted⟩

theorem issued_cons (k : LeasedKey P V) (p : P) :
    ∀ l ∈ k.nextLease p :: k.live, l.number < k.granted + 1 := by
  intro l hl
  rcases List.mem_cons.1 hl with rfl | hl
  · exact Nat.lt_succ_self _
  · exact Nat.lt_succ_of_lt (k.issued l hl)

def acquire (k : LeasedKey P V) (p : P) (v : V) : LeasedKey P V :=
  match h : k.entry with
  | none => { k with
      entry := some (v, k.nextLease p)
      live := k.nextLease p :: k.live
      granted := k.granted + 1
      revision := k.revision + 1
      attached := by simp
      issued := k.issued_cons p }
  | some _ => { k with
      live := k.nextLease p :: k.live
      granted := k.granted + 1
      attached := fun e he => List.mem_cons_of_mem _ (k.attached e he)
      issued := k.issued_cons p }

theorem later_acquire (k : LeasedKey P V) (p : P) (v : V) : Later k (k.acquire p v) := by
  unfold acquire
  split
  · exact ⟨Nat.le_succ _, fun h => absurd h (Nat.ne_of_lt (Nat.lt_succ_self _))⟩
  · exact ⟨Nat.le_refl _, fun _ => rfl⟩

theorem granted_acquire (k : LeasedKey P V) (p : P) (v : V) :
    (k.acquire p v).granted = k.granted + 1 := by
  unfold acquire
  split <;> rfl

theorem acquire_of_free (hk : k.entry = none) (p : P) (v : V) :
    (k.acquire p v).entry = some (v, k.nextLease p) ∧ k.revision < (k.acquire p v).revision := by
  unfold acquire
  split
  · exact ⟨rfl, Nat.lt_succ_self _⟩
  · next he => simp [hk] at he

theorem guards_acquire (hk : k.entry = none) (p : P) (v : V) :
    Guards (k.acquire p v) v (k.nextLease p) := by
  refine ⟨?_, fun _ => (acquire_of_free hk p v).1⟩
  rw [granted_acquire]
  exact Nat.lt_succ_self _

theorem Guards.acquire (h : Guards k v l) (p : P) (w : V) : Guards (k.acquire p w) v l := by
  have hne : l ≠ k.nextLease p := by
    rintro rfl
    exact Nat.lt_irrefl _ h.granted
  refine ⟨?_, ?_⟩
  · rw [granted_acquire]
    exact Nat.lt_succ_of_lt h.granted
  · unfold LeasedKey.acquire
    split
    · next he =>
      intro hl
      have hl' : l ∈ k.live := (List.mem_cons.1 hl).resolve_left hne
      simp [h.entry hl'] at he
    · intro hl
      exact h.entry ((List.mem_cons.1 hl).resolve_left hne)

theorem advances_acquire (k : LeasedKey P V) (p : P) (v : V) : Advances k (k.acquire p v) :=
  ⟨later_acquire k p v, fun _ _ h => h.acquire p v⟩

/-! ### Losing the lease -/

section Drop
variable [DecidableEq P]

def drop (k : LeasedKey P V) (l : Lease P) : LeasedKey P V :=
  if h : k.entry.any (·.2 = l) then { k with
    entry := none
    live := k.live.filter (· ≠ l)
    revision := k.revision + 1
    attached := by simp
    issued := fun m hm => k.issued m (List.mem_of_mem_filter hm) }
  else { k with
    live := k.live.filter (· ≠ l)
    attached := by
      intro e he
      rw [he] at h
      simpa [List.mem_filter, k.attached e he] using h
    issued := fun m hm => k.issued m (List.mem_of_mem_filter hm) }

theorem later_drop (k : LeasedKey P V) (l : Lease P) : Later k (k.drop l) := by
  unfold drop
  split
  · exact ⟨Nat.le_succ _, fun h => absurd h (Nat.ne_of_lt (Nat.lt_succ_self _))⟩
  · exact ⟨Nat.le_refl _, fun _ => rfl⟩

theorem granted_drop (k : LeasedKey P V) (l : Lease P) : (k.drop l).granted = k.granted := by
  unfold drop
  split <;> rfl

theorem Guards.drop (h : Guards k v l) (m : Lease P) : Guards (k.drop m) v l := by
  refine ⟨?_, ?_⟩
  · rw [granted_drop]
    exact h.granted
  · unfold LeasedKey.drop
    split
    · next hm =>
      intro hl
      obtain ⟨hlive, hne⟩ := List.mem_filter.1 hl
      rw [h.entry hlive] at hm
      simp_all
    · intro hl
      exact h.entry (List.mem_of_mem_filter hl)

theorem advances_drop (k : LeasedKey P V) (l : Lease P) : Advances k (k.drop l) :=
  ⟨later_drop k l, fun _ _ h => h.drop l⟩

/-- The answer to a request to keep the lease alive: zero when it is not. -/
def timeToLive (k : LeasedKey P V) (l : Lease P) (remaining : ℕ) : ℕ :=
  if l ∈ k.live then remaining + 1 else 0

theorem timeToLive_ne_zero_iff {remaining : ℕ} : k.timeToLive l remaining ≠ 0 ↔ l ∈ k.live := by
  unfold timeToLive
  split_ifs with hl <;> simp [hl]

end Drop

end LeasedKey
