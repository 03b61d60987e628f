import Mathlib.Algebra.Order.Floor.Ring
import Mathlib.Algebra.Ring.Int.Parity
import Mathlib.Data.Int.Log
import Mathlib.Tactic.FieldSimp
import Mathlib.Tactic.Linarith
import Mathlib.Tactic.Positivity

/-!
# Rounding to decimals and to doubles

`halfEven x` is the integer nearest to `x`, and the even one if there are two. `roundTo d x` rounds
to `d` decimals, and `double x` to a double. Neither goes far from `x`, so comparing a rounded value
with a round one says something of the value itself.
-/

namespace Rounding
variable {K : Type*} [Field K] [LinearOrder K] [IsStrictOrderedRing K] [FloorRing K] {x y : K}

def halfEven (x : K) : ℤ :=
  if Int.fract x < 1 / 2 ∨ Int.fract x = 1 / 2 ∧ Even ⌊x⌋ then ⌊x⌋ else ⌊x⌋ + 1

omit [IsStrictOrderedRing K] in
theorem halfEven_nonneg (hx : 0 ≤ x) : 0 ≤ halfEven x := by
  have hfloor : 0 ≤ ⌊x⌋ := Int.floor_nonneg.2 hx
  unfold halfEven
  split_ifs
  · exact hfloor
  · omega

theorem le_halfEven_add (x : K) : x ≤ halfEven x + 1 / 2 := by
  have hx := Int.floor_add_fract x
  unfold halfEven
  split_ifs with hdown
  · have hle : Int.fract x ≤ 1 / 2 := by
      rcases hdown with hlt | ⟨heq, -⟩
      · exact hlt.le
      · exact heq.le
    linarith
  · have hlt := Int.fract_lt_one x
    push_cast
    linarith

theorem halfEven_le_add (x : K) : halfEven x ≤ x + 1 / 2 := by
  have hx := Int.floor_add_fract x
  unfold halfEven
  split_ifs with hdown
  · have hnonneg := Int.fract_nonneg x
    linarith
  · have hle : 1 / 2 ≤ Int.fract x := not_lt.1 fun hlt => hdown (.inl hlt)
    push_cast
    linarith

/-! ### Decimals -/

def roundTo (d : ℕ) (x : K) : K := halfEven (x * 10 ^ d) / 10 ^ d

/-! ### Doubles -/

/-- The distance between the doubles around `x`, which have 53 bits. The subnormal ones are all
multiples of the least. -/
def ulp (x : K) : K := 2 ^ max (Int.log 2 |x| - 52) (-1074)

/-- The double nearest to `x`, as if there were no largest one. -/
def double (x : K) : K := halfEven (x / ulp x) * ulp x

theorem ulp_pos (x : K) : 0 < ulp x := zpow_pos two_pos _

theorem double_nonneg (hx : 0 ≤ x) : 0 ≤ double x := by
  have hpos := ulp_pos x
  have hnonneg : (0 : K) ≤ halfEven (x / ulp x) :=
    Int.cast_nonneg (halfEven_nonneg (div_nonneg hx hpos.le))
  exact mul_nonneg hnonneg hpos.le

theorem ulp_le (hx : 0 < x) : ulp x ≤ x / 2 ^ 52 + 2 ^ (-1074 : ℤ) := by
  have htiny : (0 : K) < 2 ^ (-1074 : ℤ) := zpow_pos two_pos _
  have hlog : (2 : K) ^ Int.log 2 x ≤ x := by
    have hself := Int.zpow_log_le_self Nat.one_lt_two hx
    rwa [Nat.cast_ofNat] at hself
  unfold ulp
  rw [abs_of_pos hx]
  rcases max_choice (Int.log 2 x - 52) (-1074) with hmax | hmax
  · have hsub : (2 : K) ^ (Int.log 2 x - 52) = 2 ^ Int.log 2 x / 2 ^ 52 := by
      rw [zpow_sub₀ two_ne_zero]
      norm_cast
    have hdiv : (2 : K) ^ Int.log 2 x / 2 ^ 52 ≤ x / 2 ^ 52 := by gcongr
    rw [hmax, hsub]
    linarith
  · have hdiv : 0 ≤ x / 2 ^ 52 := by positivity
    rw [hmax]
    linarith

theorem abs_double_sub_le (hx : 0 ≤ x) : |double x - x| ≤ x / 2 ^ 53 + 2 ^ (-1074 : ℤ) := by
  have htiny : (0 : K) < 2 ^ (-1074 : ℤ) := zpow_pos two_pos _
  rcases hx.eq_or_lt with rfl | hpos
  · have hzero : double (0 : K) = 0 := by simp [double, halfEven]
    rw [hzero]
    simp
  · have hu := ulp_pos x
    have hle := ulp_le hpos
    have hx' : x = x / ulp x * ulp x := (div_mul_cancel₀ x hu.ne').symm
    have hup := mul_le_mul_of_nonneg_right (halfEven_le_add (x / ulp x)) hu.le
    have hdown := mul_le_mul_of_nonneg_right (le_halfEven_add (x / ulp x)) hu.le
    rw [add_mul, ← hx'] at hup hdown
    rw [abs_le, double]
    constructor
    · linarith
    · linarith

/-- The bound without the exponent of the least double. -/
theorem double_close (hx : 0 ≤ x) : |double x - x| ≤ x / 2 ^ 53 + 1 / 2 ^ 60 := by
  have hleast : (2 : K) ^ (-1074 : ℤ) ≤ 2 ^ (-60 : ℤ) :=
    zpow_le_zpow_right₀ one_le_two (by decide)
  have hpow : (2 : K) ^ (-60 : ℤ) = 1 / 2 ^ 60 := by
    rw [zpow_neg, one_div]
    norm_cast
  exact (abs_double_sub_le hx).trans (add_le_add_right (hleast.trans_eq hpow) _)

end Rounding
