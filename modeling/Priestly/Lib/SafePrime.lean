/-
Module: Priestly.Lib.SafePrime
Layer: Lib
Purpose: Squares in the multiplicative group modulo a safe prime `p = 2q + 1`. A square other than one
  has order `q`, the only exponent in `[1, p - 2]` that kills it is `q`, and that exponent sends every
  non-zero base to `1` or `-1`. Dividing by two different squares can therefore never be undone by a
  power whose effect on some base is visible.
Imports: Mathlib Euler criterion and element orders
Trusted boundary: none
Main exports: orderOf_square, eq_half_of_pow_square_eq_one, pow_div_squares_ne
-/
import Mathlib.NumberTheory.LegendreSymbol.Basic
import Mathlib.GroupTheory.OrderOfElement

namespace SafePrime

variable {p : ℕ} [Fact p.Prime]

theorem half_eq (hq : ((p - 1) / 2).Prime) : p / 2 = (p - 1) / 2 ∧ p = 2 * ((p - 1) / 2) + 1 := by
  have hp : p.Prime := Fact.out
  have htwo := hq.two_le
  rcases hp.eq_two_or_odd with h | h <;> omega

/-- Modulo a safe prime every square other than zero and one has order `(p - 1) / 2`. -/
theorem orderOf_square (hq : ((p - 1) / 2).Prime) {x : ZMod p} (hx : IsSquare x) (h0 : x ≠ 0)
    (h1 : x ≠ 1) : orderOf x = (p - 1) / 2 := by
  have hpow : x ^ ((p - 1) / 2) = 1 := by
    rw [← (half_eq hq).1]
    exact (ZMod.euler_criterion p h0).mp hx
  have : Fact ((p - 1) / 2).Prime := ⟨hq⟩
  exact orderOf_eq_prime hpow h1

/-- The one exponent up to `p - 2` that sends such a square to one is `(p - 1) / 2`. -/
theorem eq_half_of_pow_square_eq_one (hq : ((p - 1) / 2).Prime) {x : ZMod p} (hx : IsSquare x)
    (h0 : x ≠ 0) (h1 : x ≠ 1) {a : ℕ} (ha : 1 ≤ a) (ha' : a ≤ p - 2) (hpow : x ^ a = 1) :
    a = (p - 1) / 2 := by
  have hdvd : (p - 1) / 2 ∣ a := by
    rw [← orderOf_square hq hx h0 h1]
    exact orderOf_dvd_of_pow_eq_one hpow
  obtain ⟨k, rfl⟩ := hdvd
  have hp := (half_eq hq).2
  have hk : k = 1 := by
    have hpos : 0 < k := Nat.pos_of_ne_zero (by rintro rfl; simp at ha)
    by_contra hne
    have : (p - 1) / 2 * 2 ≤ (p - 1) / 2 * k := Nat.mul_le_mul_left _ (by omega)
    omega
  rw [hk, Nat.mul_one]

/-- Dividing a non-zero `m` by two different non-zero squares keeps the `a`-th powers apart, as soon
as `g ^ a` is none of `0`, `1`, `-1` for some `g`: the single exponent that could merge the two
quotients is the one that sends every base to `1` or `-1`. -/
theorem pow_div_squares_ne (hq : ((p - 1) / 2).Prime) {g m u v : ZMod p} {a : ℕ}
    (hu : IsSquare u) (hv : IsSquare v) (hu0 : u ≠ 0) (hv0 : v ≠ 0) (hm0 : m ≠ 0) (huv : u ≠ v)
    (ha : 1 ≤ a) (ha' : a ≤ p - 2) (hg0 : g ^ a ≠ 0) (hg1 : g ^ a ≠ 1) (hgneg : g ^ a ≠ -1) :
    (m * u⁻¹) ^ a ≠ (m * v⁻¹) ^ a := by
  intro hsame
  have hratio : IsSquare (v * u⁻¹) := hv.mul hu.inv
  have hratio0 : v * u⁻¹ ≠ 0 := mul_ne_zero hv0 (inv_ne_zero hu0)
  have hratio1 : v * u⁻¹ ≠ 1 := by
    intro h
    exact huv (eq_of_mul_inv_eq_one h).symm
  have hpow : (v * u⁻¹) ^ a = 1 := by
    have hm : m ^ a ≠ 0 := pow_ne_zero a hm0
    have hva : v ^ a ≠ 0 := pow_ne_zero a hv0
    rw [mul_pow, mul_pow, inv_pow, inv_pow] at hsame
    have hinv : (u ^ a)⁻¹ = (v ^ a)⁻¹ := mul_left_cancel₀ hm hsame
    rw [mul_pow, inv_pow, hinv, mul_inv_cancel₀ hva]
  have hhalf := eq_half_of_pow_square_eq_one hq hratio hratio0 hratio1 ha ha' hpow
  have hg : g ≠ 0 := by
    rintro rfl
    exact hg0 (zero_pow (by omega))
  rw [hhalf, ← (half_eq hq).1] at hg1 hgneg
  rcases ZMod.pow_div_two_eq_neg_one_or_one p hg with h | h
  · exact hg1 h
  · exact hgneg h

end SafePrime
