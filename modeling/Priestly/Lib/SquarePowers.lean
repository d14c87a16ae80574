/-
Module: Priestly.Lib.SquarePowers
Layer: Lib
Purpose: The powers of a square modulo a safe prime, as a source of secrets. Every square is such a power, so
  multiplying by one shifts the exponent; and a test of the power says yes to nearly as many exponents after
  a shift as before, whatever it tests.
Imports: Priestly.Lib.SafePrime, Mathlib primitive roots and counting over periods
Trusted boundary: none
Main exports: exists_pow_eq, pow_eq_of_pow_eq, periodic_pow, exists_shift, card_shift, card_shift_le
-/
import Mathlib.Data.Nat.Periodic
import Mathlib.RingTheory.RootsOfUnity.PrimitiveRoots
import Priestly.Lib.SafePrime

namespace SafePrime

variable {p : ℕ} [Fact p.Prime]

/-! ### The powers of a square -/

section Powers

variable {g : ZMod p}

/-- Every square other than zero is a power of a square other than zero and one. -/
theorem exists_pow_eq (hq : ((p - 1) / 2).Prime) (hg : IsSquare g) (hg0 : g ≠ 0) (hg1 : g ≠ 1) {x : ZMod p}
    (hx : IsSquare x) (hx0 : x ≠ 0) : ∃ k, g ^ k = x := by
  have hroot : IsPrimitiveRoot g ((p - 1) / 2) :=
    IsPrimitiveRoot.iff_orderOf.mpr (orderOf_square hq hg hg0 hg1)
  have hpow : x ^ ((p - 1) / 2) = 1 := by
    rw [← (half_eq hq).1]
    exact (ZMod.euler_criterion p hx0).mp hx
  have : NeZero ((p - 1) / 2) := ⟨hq.ne_zero⟩
  obtain ⟨k, _, hk⟩ := hroot.eq_pow_of_pow_eq_one hpow
  exact ⟨k, hk⟩

/-- Two exponents that lead such a square to the same power lead every square to the same power. -/
theorem pow_eq_of_pow_eq (hq : ((p - 1) / 2).Prime) (hg : IsSquare g) (hg0 : g ≠ 0) (hg1 : g ≠ 1)
    {x : ZMod p} (hx : IsSquare x) (hx0 : x ≠ 0) {b b' : ℕ} (h : g ^ b = g ^ b') : x ^ b = x ^ b' := by
  obtain ⟨k, rfl⟩ := exists_pow_eq hq hg hg0 hg1 hx hx0
  calc (g ^ k) ^ b = (g ^ b) ^ k := pow_right_comm g k b
    _ = (g ^ b') ^ k := by rw [h]
    _ = (g ^ k) ^ b' := (pow_right_comm g k b').symm

/-- The powers of a square repeat after `(p - 1) / 2` exponents. -/
theorem periodic_pow (hq : ((p - 1) / 2).Prime) (hg : IsSquare g) (hg0 : g ≠ 0) :
    Function.Periodic (fun b : ℕ => g ^ b) ((p - 1) / 2) := by
  have hpow : g ^ ((p - 1) / 2) = 1 := by
    rw [← (half_eq hq).1]
    exact (ZMod.euler_criterion p hg0).mp hg
  intro b
  show g ^ (b + (p - 1) / 2) = g ^ b
  rw [pow_add, hpow, mul_one]

end Powers

/-! ### Shifted exponents -/

/-- What a periodic function makes of one shift it makes of every other, already within one period. -/
theorem exists_shift {α : Type*} {f : ℕ → α} {n : ℕ} (hn : 0 < n) (hperiod : Function.Periodic f n)
    (b shift shift' : ℕ) : ∃ b', 1 ≤ b' ∧ b' ≤ n ∧ f (b' + shift') = f (b + shift) := by
  have hlt := Nat.mod_lt shift' hn
  have hshift : (b + shift + (n - shift' % n) + shift') % n = (b + shift) % n := by
    have hsplit := Nat.div_add_mod shift' n
    have hsum : b + shift + (n - shift' % n) + shift' = b + shift + n * (shift' / n + 1) := by
      rw [Nat.mul_add, Nat.mul_one]
      omega
    rw [hsum, Nat.add_mul_mod_self_left]
  have hsame : ∀ c, c % n = (b + shift + (n - shift' % n)) % n → f (c + shift') = f (b + shift) := by
    intro c hc
    have hmod : (c + shift') % n = (b + shift) % n := by
      rw [← hshift, Nat.add_mod, hc, ← Nat.add_mod]
    rw [← hperiod.map_mod_nat, hmod, hperiod.map_mod_nat]
  by_cases hzero : (b + shift + (n - shift' % n)) % n = 0
  · exact ⟨n, hn, le_rfl, hsame n (by rw [Nat.mod_self, hzero])⟩
  · exact ⟨_, Nat.pos_of_ne_zero hzero, (Nat.mod_lt _ hn).le, hsame _ (Nat.mod_mod _ _)⟩

/-- The exponents of a period that pass a periodic test after a shift: with the first one they are as many as
pass it without. -/
theorem card_shift {n : ℕ} (hn : 0 < n) (test : ℕ → Prop) [DecidablePred test]
    (hperiod : Function.Periodic test n) (shift : ℕ) :
    ((Finset.Ico 1 n).filter fun b => test (b + shift)).card + (if test shift then 1 else 0) =
      n.count test := by
  have hcount := Nat.filter_Ico_card_eq_of_periodic shift n test hperiod
  have himage : ((Finset.Ico shift (shift + n)).filter test).card =
      ((Finset.Ico 0 n).filter fun b => test (b + shift)).card := by
    apply (Finset.card_bij (fun b _ => b + shift) ?_ ?_ ?_).symm
    · intro b hb
      rw [Finset.mem_filter, Finset.mem_Ico] at hb ⊢
      exact ⟨by omega, hb.2⟩
    · intro b _ b' _ h
      omega
    · intro c hc
      rw [Finset.mem_filter, Finset.mem_Ico] at hc
      refine ⟨c - shift, ?_, by omega⟩
      rw [Finset.mem_filter, Finset.mem_Ico, Nat.sub_add_cancel hc.1.1]
      exact ⟨by omega, hc.2⟩
  have hinsert : Finset.Ico 0 n = insert 0 (Finset.Ico 1 n) := by
    ext b
    rw [Finset.mem_insert, Finset.mem_Ico, Finset.mem_Ico]
    omega
  rw [← hcount, himage, hinsert, Finset.filter_insert, Nat.zero_add]
  by_cases h : test shift
  · rw [if_pos h, if_pos h, Finset.card_insert_of_notMem (by simp)]
  · rw [if_neg h, if_neg h, Nat.add_zero]

/-- So two shifts make a difference of at most one exponent. -/
theorem card_shift_le {n : ℕ} (hn : 0 < n) (test : ℕ → Prop) [DecidablePred test]
    (hperiod : Function.Periodic test n) (shift shift' : ℕ) :
    ((Finset.Ico 1 n).filter fun b => test (b + shift)).card ≤
      ((Finset.Ico 1 n).filter fun b => test (b + shift')).card + 1 := by
  have h := card_shift hn test hperiod shift
  have h' := card_shift hn test hperiod shift'
  have hone : (if test shift' then 1 else 0) ≤ 1 := by
    by_cases htest : test shift'
    · rw [if_pos htest]
    · rw [if_neg htest]
      exact Nat.zero_le 1
  omega

end SafePrime
