/-
Module: Priestly.Lib.Euclid
Layer: Lib
Purpose: The iterative extended Euclidean algorithm over the integers, for any quotient whose
  remainder shrinks. The floor quotient and the truncating quotient are two instances; on
  non-negative operands every instance that rounds like the Euclidean quotient runs identically.
Imports: Mathlib integer division and gcd lemmas
Trusted boundary: none
Main exports: IntDivision, IntDivision.loop, IntDivision.loop_bezout, IntDivision.loop_natAbs,
  IntDivision.loop_nonneg, IntDivision.loop_congr
-/
import Mathlib.Algebra.Order.Group.Unbundled.Int
import Mathlib.Data.Int.GCD
import Mathlib.Tactic.LinearCombination

/-- An integer quotient whose remainder is strictly smaller than the divisor in absolute value. The
strict decrease is what makes the loop below terminate. -/
structure IntDivision where
  quot : Int → Int → Int
  rem_lt : ∀ a b : Int, b ≠ 0 → (a - quot a b * b).natAbs < b.natAbs

namespace IntDivision

/-- Division rounding towards minus infinity. -/
def floor : IntDivision where
  quot := Int.fdiv
  rem_lt a b hb := by
    have hmod : a - Int.fdiv a b * b = Int.fmod a b := by
      rw [Int.fmod_def, Int.mul_comm]
    rw [hmod]
    rcases Int.lt_or_gt_of_ne hb with hneg | hpos
    · have hupper : Int.fmod a b ≤ 0 := by
        have := Int.fmod_nonneg_of_pos (-a) (b := -b) (by omega)
        rw [Int.neg_fmod_neg] at this
        omega
      have hlower : b < Int.fmod a b := by
        have := Int.fmod_lt_of_pos (-a) (b := -b) (by omega)
        rw [Int.neg_fmod_neg] at this
        omega
      omega
    · have hlower := Int.fmod_nonneg_of_pos a hpos
      have hupper := Int.fmod_lt_of_pos a hpos
      omega

/-- Division rounding towards zero. -/
def trunc : IntDivision where
  quot := Int.tdiv
  rem_lt a b hb := by
    have hmod : a - Int.tdiv a b * b = Int.tmod a b := by
      rw [Int.tmod_def, Int.mul_comm]
    rw [hmod, Int.natAbs_tmod]
    exact Nat.mod_lt _ (Int.natAbs_pos.mpr hb)

/-- The loop of the algorithm. Each of the three pairs is updated with one common quotient. -/
def loop (D : IntDivision) (oldR r oldS s oldT t : Int) : Int × Int × Int :=
  if r = 0 then (oldR, oldS, oldT)
  else
    loop D r (oldR - D.quot oldR r * r) s (oldS - D.quot oldR r * s) t (oldT - D.quot oldR r * t)
termination_by r.natAbs
decreasing_by exact D.rem_lt oldR r ‹_›

variable (D : IntDivision)

/-- The remainder columns stay integer combinations of the operands along the loop, so the result is
one. -/
theorem loop_bezout {a b oldR r oldS s oldT t : Int}
    (hold : a * oldS + b * oldT = oldR) (hcur : a * s + b * t = r) :
    a * (D.loop oldR r oldS s oldT t).2.1 + b * (D.loop oldR r oldS s oldT t).2.2 =
      (D.loop oldR r oldS s oldT t).1 := by
  fun_induction loop D oldR r oldS s oldT t with
  | case1 => exact hold
  | case2 oldR r oldS s oldT t _ ih =>
      apply ih hcur
      linear_combination hold - D.quot oldR r * hcur

/-- The loop keeps the greatest common divisor of the two remainders. -/
theorem loop_natAbs (oldR r oldS s oldT t : Int) :
    (D.loop oldR r oldS s oldT t).1.natAbs = Int.gcd oldR r := by
  fun_induction loop D oldR r oldS s oldT t with
  | case1 => simp
  | case2 oldR r oldS s oldT t _ ih =>
      rw [ih, Int.gcd_comm, Int.gcd_sub_mul_right_left]

/-- A quotient that agrees with Euclidean division on non-negative operands. -/
def RoundsNonneg : Prop :=
  ∀ a b : Int, 0 ≤ a → 0 < b → D.quot a b = a / b

theorem floor_roundsNonneg : floor.RoundsNonneg := by
  intro a b _ hb
  exact Int.fdiv_eq_ediv_of_nonneg a hb.le

theorem trunc_roundsNonneg : trunc.RoundsNonneg := by
  intro a b ha _
  exact Int.tdiv_eq_ediv_of_nonneg ha

variable {D}

private theorem rem_nonneg (hD : D.RoundsNonneg) {a b : Int} (ha : 0 ≤ a) (hb : 0 < b) :
    0 ≤ a - D.quot a b * b := by
  have hdef := Int.emod_def a b
  have hmod := Int.emod_nonneg a hb.ne'
  rw [hD a b ha hb, Int.mul_comm]
  omega

/-- On non-negative operands the divisor found is non-negative. -/
theorem loop_nonneg (hD : D.RoundsNonneg) {oldR r oldS s oldT t : Int}
    (hold : 0 ≤ oldR) (hcur : 0 ≤ r) : 0 ≤ (D.loop oldR r oldS s oldT t).1 := by
  fun_induction loop D oldR r oldS s oldT t with
  | case1 => exact hold
  | case2 oldR r oldS s oldT t hr ih =>
      exact ih hcur (rem_nonneg hD hold (by omega))

/-- Two quotients that round alike on non-negative operands run the same loop there. -/
theorem loop_congr {E : IntDivision} (hD : D.RoundsNonneg) (hE : E.RoundsNonneg)
    {oldR r oldS s oldT t : Int} (hold : 0 ≤ oldR) (hcur : 0 ≤ r) :
    D.loop oldR r oldS s oldT t = E.loop oldR r oldS s oldT t := by
  fun_induction loop D oldR r oldS s oldT t with
  | case1 => rw [loop, if_pos rfl]
  | case2 oldR r oldS s oldT t hr ih =>
      have hpos : 0 < r := by omega
      have same : E.quot oldR r = D.quot oldR r := by
        rw [hD _ _ hold hpos, hE _ _ hold hpos]
      rw [ih hcur (rem_nonneg hD hold hpos), loop.eq_def E oldR r, if_neg hr, same]

end IntDivision
