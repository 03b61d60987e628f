import Mathlib.Algebra.Order.Floor.Semiring
import Mathlib.Data.Rat.Floor
import Mathlib.Tactic.Ring
import NovaFederation.CephRBDClient

/-!
# The polling loop of `wait_for_sync`

The loop counts slept seconds. A round polls, and sleeps when the poll answers with too much
lag; so before round `k` there have been `k` polls and `k` sleeps, and the round takes place as
long as `k * pollInterval` is less than the timeout.
-/

namespace NovaFederation
open Coroutine CephRBDClient

def settles (bound : ℤ) : Except PyException MirrorStatus → Bool
  | .ok status => status.lagBytes ≤ bound
  | .error _ => true

/-- The local variable `status` after the first `k` polls. -/
def RbdAnswers.last (a : RbdAnswers) : ℕ → Option MirrorStatus
  | 0 => none
  | k + 1 => (a.polls k).toOption

theorem polled_append (h t : CephTrace) : polled (h ++ t) = polled h + polled t :=
  List.countP_append

theorem slept_append (h t : CephTrace) : slept (h ++ t) = slept h + slept t :=
  List.countP_append

section Rounds
variable {cfg : CephConfig} (pool image : String) {maxLag : Option ℤ} {T p elapsed : ℤ}
  {a : RbdAnswers} (n : ℕ) (last : Option MirrorStatus) {h : CephTrace}

theorem exec_syncLoop_settled (ht : elapsed < T)
    (hs : settles (threshold cfg maxLag) (a.polls (polled h)) = true) :
    exec a.world (syncLoop cfg pool image maxLag T p (n + 1) elapsed last) () h =
      ((a.polls (polled h)).map some, (),
        h ++ [⟨.getMirrorStatus pool image, a.polls (polled h)⟩]) := by
  have hO : a.world h (.getMirrorStatus pool image) = a.polls (polled h) := rfl
  rw [syncLoop.eq_def]
  dsimp only
  rw [if_pos ht]
  cases hpoll : a.polls (polled h) with
  | error e =>
    rw [hpoll] at hO
    rw [exec_bind, exec_perform_of_error hO]
    rfl
  | ok status =>
    rw [hpoll] at hO hs
    have hlag : status.lagBytes ≤ threshold cfg maxLag := of_decide_eq_true hs
    rw [exec_bind, exec_perform_of_ok hO]
    simp only [if_pos hlag]
    rfl

theorem exec_syncLoop_lagging (ht : elapsed < T) {status : MirrorStatus}
    (hpoll : a.polls (polled h) = .ok status)
    (hs : settles (threshold cfg maxLag) (.ok status) = false) :
    exec a.world (syncLoop cfg pool image maxLag T p (n + 1) elapsed last) () h =
      exec a.world (syncLoop cfg pool image maxLag T p n (elapsed + p) (some status)) ()
        (h ++ [⟨.getMirrorStatus pool image, .ok status⟩, ⟨.sleep p, .ok ()⟩]) := by
  have hO : a.world h (.getMirrorStatus pool image) = .ok status := hpoll
  have hlag : ¬ status.lagBytes ≤ threshold cfg maxLag := of_decide_eq_false hs
  rw [syncLoop.eq_def]
  dsimp only
  rw [if_pos ht, exec_bind, exec_perform_of_ok hO]
  dsimp only
  rw [if_neg hlag, exec_bind, exec_perform_of_ok (v := ()) rfl]
  simp only [List.append_assoc, List.singleton_append]

theorem exec_syncLoop_expired (ht : ¬ elapsed < T) (status : MirrorStatus) :
    exec a.world (syncLoop cfg pool image maxLag T p (n + 1) elapsed (some status)) () h =
      (.error (syncTimeout pool image T status.lagBytes), (), h) := by
  rw [syncLoop, if_neg ht]
  rfl

theorem exec_syncLoop_rounds (k n : ℕ) (ht : ∀ i < k, (i : ℤ) * p < T)
    (hs : ∀ i < k, settles (threshold cfg maxLag) (a.polls i) = false) :
    ∃ h, exec a.world (syncLoop cfg pool image maxLag T p (k + n) 0 none) () [] =
        exec a.world (syncLoop cfg pool image maxLag T p n (k * p) (a.last k)) () h ∧
      polled h = k ∧ slept h = k := by
  induction k generalizing n with
  | zero => exact ⟨[], by simp [RbdAnswers.last], rfl, rfl⟩
  | succ k ih =>
    obtain ⟨h, hexec, hpolled, hslept⟩ :=
      ih (n + 1) (fun i hi => ht i (by omega)) fun i hi => hs i (by omega)
    have hlate := hs k (Nat.lt_succ_self k)
    cases hpoll : a.polls k with
    | error e =>
      rw [hpoll] at hlate
      cases hlate
    | ok status =>
      rw [hpoll] at hlate
      have hround := exec_syncLoop_lagging pool image n (a.last k) (p := p)
        (ht k (Nat.lt_succ_self k)) (hpolled.symm ▸ hpoll) hlate
      refine ⟨h ++ [⟨.getMirrorStatus pool image, .ok status⟩, ⟨.sleep p, .ok ()⟩], ?_, ?_, ?_⟩
      · rw [Nat.add_right_comm, Nat.add_assoc, hexec, hround, RbdAnswers.last, hpoll]
        push_cast
        rw [add_mul, one_mul]
        rfl
      · rw [polled_append, hpolled]
        rfl
      · rw [slept_append, hslept]
        rfl

theorem run_waitForSync_settled {k rounds : ℕ} (hr : k < rounds) (ht : ∀ i ≤ k, (i : ℤ) * p < T)
    (hbefore : ∀ i < k, settles (threshold cfg maxLag) (a.polls i) = false)
    (hs : settles (threshold cfg maxLag) (a.polls k) = true) :
    ∃ h, run a.world (waitForSync cfg pool image maxLag T p rounds) () =
        ((a.polls k).map some, (), h ++ [⟨.getMirrorStatus pool image, a.polls k⟩]) ∧
      polled h = k ∧ slept h = k := by
  obtain ⟨n, rfl⟩ : ∃ n, rounds = k + (n + 1) := ⟨rounds - k - 1, by omega⟩
  obtain ⟨h, hexec, rfl, hslept⟩ := exec_syncLoop_rounds pool image k (n + 1)
    (fun i hi => ht i (by omega)) hbefore
  have hlast := exec_syncLoop_settled pool image n (a.last (polled h)) (p := p)
    (ht _ (Nat.le_refl _)) hs
  exact ⟨h, hexec.trans hlast, rfl, hslept⟩

theorem run_waitForSync_at_once (cfg : CephConfig) (maxLag : Option ℤ) {rounds : ℕ}
    (hr : 0 < rounds) (hT : 0 < T) (hs : settles (threshold cfg maxLag) (a.polls 0) = true) :
    (run a.world (waitForSync cfg pool image maxLag T p rounds) ()).1 = (a.polls 0).map some := by
  obtain ⟨h, hout, -⟩ := run_waitForSync_settled pool image hr (p := p) (fun i hi => by
    obtain rfl : i = 0 := by omega
    simpa using hT) (fun i hi => by omega) hs
  rw [hout]

theorem run_waitForSync_late {k rounds : ℕ} (hr : k + 1 < rounds)
    (ht : ∀ i, i < k + 1 ↔ (i : ℤ) * p < T)
    (hs : ∀ i < k + 1, settles (threshold cfg maxLag) (a.polls i) = false) :
    ∃ status h, a.polls k = .ok status ∧
      run a.world (waitForSync cfg pool image maxLag T p rounds) () =
        (.error (syncTimeout pool image T status.lagBytes), (), h) ∧ polled h = k + 1 := by
  obtain ⟨n, rfl⟩ : ∃ n, rounds = k + 1 + (n + 1) := ⟨rounds - (k + 1) - 1, by omega⟩
  obtain ⟨h, hexec, hpolled, -⟩ := exec_syncLoop_rounds pool image (k + 1) (n + 1)
    (fun i hi => (ht i).1 hi) hs
  have hlast := hs k (Nat.lt_succ_self k)
  have hover : ¬ ((k + 1 : ℕ) : ℤ) * p < T := fun h => absurd ((ht _).2 h) (Nat.lt_irrefl _)
  cases hpoll : a.polls k with
  | error e =>
    rw [hpoll] at hlast
    cases hlast
  | ok status =>
    rw [RbdAnswers.last, hpoll] at hexec
    exact ⟨status, h, rfl, hexec.trans (exec_syncLoop_expired pool image n hover status), hpolled⟩

end Rounds

theorem lt_ceil_div_iff {T p : ℤ} (hp : 1 ≤ p) (k : ℕ) :
    k < ⌈(T / p : ℚ)⌉₊ ↔ (k : ℤ) * p < T := by
  have hpos : (0 : ℚ) < p := by exact_mod_cast hp
  rw [Nat.lt_ceil, lt_div_iff₀ hpos]
  exact_mod_cast Iff.rfl

/-- The first answer within the timeout that ends the loop is the result; without one, the loop
gives up after the last poll that fits. -/
theorem waitForSync_exact (cfg : CephConfig) (pool image : String) (maxLag : Option ℤ) (T p : ℤ)
    (hT : 1 ≤ T) (hp : 1 ≤ p) (a : RbdAnswers) (rounds : ℕ) (hr : ⌈(T / p : ℚ)⌉₊ < rounds) :
    let K := ⌈(T / p : ℚ)⌉₊
    let bound := threshold cfg maxLag
    let out := run a.world (waitForSync cfg pool image maxLag T p rounds) ()
    (∀ k < K, (∀ i < k, settles bound (a.polls i) = false) → settles bound (a.polls k) = true →
        out.1 = (a.polls k).map some ∧ polled out.2.2 = k + 1 ∧ slept out.2.2 = k) ∧
      ((∀ k < K, settles bound (a.polls k) = false) → ∃ status, a.polls (K - 1) = .ok status ∧
        out.1 = .error (syncTimeout pool image T status.lagBytes) ∧ polled out.2.2 = K) ∧
      out.1 ≠ .ok none := by
  intro K bound out
  have hin : ∀ k, k < K ↔ (k : ℤ) * p < T := lt_ceil_div_iff hp
  have hsettled : ∀ k < K, (∀ i < k, settles bound (a.polls i) = false) →
      settles bound (a.polls k) = true →
      out.1 = (a.polls k).map some ∧ polled out.2.2 = k + 1 ∧ slept out.2.2 = k := by
    intro k hk hbefore hs
    obtain ⟨h, hout, hpolled, hslept⟩ := run_waitForSync_settled pool image
      (show k < rounds by omega) (fun i hi => (hin i).1 (by omega)) hbefore hs
    change out = _ at hout
    rw [hout, polled_append, slept_append, hpolled, hslept]
    exact ⟨rfl, rfl, rfl⟩
  have hlate : (∀ k < K, settles bound (a.polls k) = false) → ∃ status,
      a.polls (K - 1) = .ok status ∧
        out.1 = .error (syncTimeout pool image T status.lagBytes) ∧ polled out.2.2 = K := by
    intro hs
    have hpos : 0 < K := (hin 0).2 (by omega)
    obtain ⟨k, hk⟩ : ∃ k, K = k + 1 := ⟨K - 1, by omega⟩
    rw [hk] at hin hs ⊢
    obtain ⟨status, h, hpoll, hout, hpolled⟩ :=
      run_waitForSync_late pool image (show k + 1 < rounds by omega) hin hs
    change out = _ at hout
    rw [hout]
    exact ⟨status, hpoll, rfl, hpolled⟩
  refine ⟨hsettled, hlate, fun hnone => ?_⟩
  by_cases hany : ∃ k, k < K ∧ settles bound (a.polls k) = true
  · -- the least such poll is the first one
    obtain ⟨hk, hs⟩ := Nat.find_spec hany
    have hbefore : ∀ i < Nat.find hany, settles bound (a.polls i) = false := by
      intro i hi
      by_contra hset
      exact Nat.find_min hany hi ⟨hi.trans hk, by simpa using hset⟩
    rw [(hsettled _ hk hbefore hs).1] at hnone
    cases hpoll : a.polls (Nat.find hany) with
    | error e => simp [hpoll, Except.map] at hnone
    | ok status => simp [hpoll, Except.map] at hnone
  · obtain ⟨status, -, hout, -⟩ := hlate fun k hk => by
      by_contra hset
      exact hany ⟨k, hk, by simpa using hset⟩
    rw [hout] at hnone
    cases hnone

def mirrorStatus (state : String) (lagBytes : ℤ) : MirrorStatus :=
  ⟨"volume-a", "rbd", state, "", lagBytes, 0, state == "up+replaying" && lagBytes == 0⟩

/-- A mirror that catches up at the third poll, the last of twelve seconds. -/
def catchingUp : RbdAnswers where
  info := .error ⟨.cephError, "rbd command failed: "⟩
  polls k := .ok (mirrorStatus "up+replaying" (if k < 2 then 4096 else 0))

theorem waitForSync_exact_catchingUp :
    let out := run catchingUp.world (waitForSync ⟨0⟩ "rbd" "volume-a" none 12 5 4) ()
    out.1 = .ok (some (mirrorStatus "up+replaying" 0)) ∧ polled out.2.2 = 3 ∧
      slept out.2.2 = 2 := by
  have hin := lt_ceil_div_iff (T := 12) (p := 5) (by decide)
  have hthree : ⌈((12 : ℤ) / (5 : ℤ) : ℚ)⌉₊ < 4 := by
    have hlast := (hin 3).not.2 (by decide)
    omega
  exact (waitForSync_exact ⟨0⟩ "rbd" "volume-a" none 12 5 (by decide) (by decide) catchingUp 4
    hthree).1 2 ((hin 2).2 (by decide)) (by decide) (by decide)

end NovaFederation
