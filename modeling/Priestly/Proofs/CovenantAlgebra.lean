/-
Module: Priestly.Proofs.CovenantAlgebra
Layer: Proofs
Purpose: What the PAKE primitives compute, read in the residue ring modulo `P`: the modular inverse
  is an inverse exactly when one exists, unmasking divides by the password element, and the password
  element is a non-zero square.
Imports: Priestly.Crypto.Covenant, Priestly.Lib.SafePrime
Trusted boundary: none
Main exports: modinv_eq_ok, modinv_eq_error, modular_inverse, cast_unmask, unmask_isOk, cast_secretToElement,
  shared_secret_agreement, shared_secret_separates
-/
import Priestly.Crypto.Covenant
import Priestly.Lib.SafePrime

namespace Priestly

open ByteCodec

/-! ### The modular inverse -/

section Modinv

variable {a m : Nat}

private theorem extendedGcd_fst (a m : Nat) : (extendedGcd a m).1 = (Nat.gcd a m : Int) := by
  have habs := IntDivision.floor.loop_natAbs a m 1 0 0 1
  have hnonneg : 0 ≤ (IntDivision.floor.loop a m 1 0 0 1).1 :=
    IntDivision.loop_nonneg IntDivision.floor_roundsNonneg (Int.natCast_nonneg a)
      (Int.natCast_nonneg m)
  rw [Int.gcd_natCast_natCast] at habs
  unfold extendedGcd
  omega

private theorem extendedGcd_bezout (a m : Nat) :
    (a : Int) * (extendedGcd a m).2.1 + m * (extendedGcd a m).2.2 = (extendedGcd a m).1 :=
  IntDivision.floor.loop_bezout (by ring) (by ring)

private theorem fmod_natCast (a m : Nat) : (a : Int).fmod m = ((a % m : Nat) : Int) := by
  rw [Int.fmod_eq_emod_of_nonneg _ (Int.natCast_nonneg m), Int.natCast_mod]

/-- What the loop returns decides what the inverse does. -/
private theorem modinv_natCast (a m : Nat) :
    modinv a m =
      if (extendedGcd ((a % m : Nat) : Int) m).1 = 1 then
        .ok (((extendedGcd ((a % m : Nat) : Int) m).2.1) % m)
      else .error (.valueError "no modular inverse exists") := by
  rw [modinv, fmod_natCast]
  rcases extendedGcd ((a % m : Nat) : Int) m with ⟨g, x, y⟩
  simp only [ne_eq, ite_not, Int.fmod_eq_emod_of_nonneg _ (Int.natCast_nonneg m)]

/-- A residue without an inverse makes `modinv` raise. -/
theorem modinv_eq_error (h : Nat.gcd a m ≠ 1) :
    modinv a m = .error (.valueError "no modular inverse exists") := by
  have hg := extendedGcd_fst (a % m) m
  rw [← Nat.gcd_rec, Nat.gcd_comm] at hg
  rw [modinv_natCast, if_neg]
  rw [hg]
  exact_mod_cast h

/-- A residue prime to the modulus has its inverse found. -/
theorem modinv_eq_ok (hm : 0 < m) (h : Nat.gcd a m = 1) :
    ∃ x : Nat, modinv a m = .ok (x : Int) ∧ x < m ∧ (a : ZMod m) * x = 1 := by
  have hg := extendedGcd_fst (a % m) m
  have hbez := extendedGcd_bezout (a % m) m
  rw [← Nat.gcd_rec, Nat.gcd_comm, h, Nat.cast_one] at hg
  have hpos : (0 : Int) < m := by exact_mod_cast hm
  set coefficient := (extendedGcd ((a % m : Nat) : Int) m).2.1
  have hrange := Int.emod_nonneg coefficient hpos.ne'
  have hupper := Int.emod_lt_of_pos coefficient hpos
  refine ⟨(coefficient % m).toNat, ?_, by omega, ?_⟩
  · rw [modinv_natCast, if_pos hg, Int.toNat_of_nonneg hrange]
  · have hcast : (((coefficient % m).toNat : Nat) : ZMod m) = (coefficient : ZMod m) := by
      rw [← Int.cast_natCast, Int.toNat_of_nonneg hrange, ZMod.intCast_mod]
    have hring := congrArg (Int.cast : Int → ZMod m) hbez
    rw [hg] at hring
    push_cast at hring
    rw [ZMod.natCast_self, zero_mul, add_zero] at hring
    rw [hcast, ← hring]

end Modinv

/-- Reducing the operand first changes nothing. -/
theorem modinv_emod (a : Int) {m : Int} (hm : 0 < m) : modinv (a % m) m = modinv a m := by
  have hfmod : ∀ b : Int, b.fmod m = b % m := fun b => Int.fmod_eq_emod_of_nonneg b hm.le
  rw [modinv, modinv, hfmod, hfmod, Int.emod_emod]

/-- Two inverses of one residue are the same residue. -/
theorem eq_of_modEq_one {a m x y : Int} (hx : 0 ≤ x ∧ x < m) (hy : 0 ≤ y ∧ y < m)
    (hax : a * x ≡ 1 [ZMOD m]) (hay : a * y ≡ 1 [ZMOD m]) : y = x := by
  have hyx : y ≡ x [ZMOD m] :=
    calc y = 1 * y := (one_mul y).symm
      _ ≡ a * x * y [ZMOD m] := (hax.mul_right y).symm
      _ = a * y * x := by ring
      _ ≡ 1 * x [ZMOD m] := hay.mul_right x
      _ = x := one_mul x
  rw [Int.ModEq, Int.emod_eq_of_lt hy.1 hy.2, Int.emod_eq_of_lt hx.1 hx.2] at hyx
  exact hyx

/-- The extended algorithm finds the greatest common divisor with its coefficients, for all operands that
are not negative; and `modinv` returns the one inverse below the modulus where there is one, and raises
`ValueError` where there is none, for every integer. -/
theorem modular_inverse :
    (∀ a b : Int, 0 ≤ a → 0 ≤ b →
      (extendedGcd a b).1 = Int.gcd a b ∧
        a * (extendedGcd a b).2.1 + b * (extendedGcd a b).2.2 = (extendedGcd a b).1) ∧
    ∀ a m : Int, 1 ≤ m →
      (Int.gcd a m = 1 → ∃ x, modinv a m = .ok x ∧ (0 ≤ x ∧ x < m ∧ a * x ≡ 1 [ZMOD m]) ∧
        ∀ y, 0 ≤ y ∧ y < m ∧ a * y ≡ 1 [ZMOD m] → y = x) ∧
      (Int.gcd a m ≠ 1 → ∃ text, modinv a m = .error (.valueError text)) := by
  constructor
  · intro a b ha hb
    lift a to Nat using ha
    lift b to Nat using hb
    exact ⟨extendedGcd_fst a b, extendedGcd_bezout a b⟩
  · intro a m hm
    have hpos : 0 < m := hm
    have hreduced := modinv_emod a hpos
    have hgcd : Int.gcd (a % m) m = Int.gcd a m := Int.gcd_emod a m
    have hclass : a % m ≡ a [ZMOD m] := Int.mod_modEq a m
    have hnonneg : 0 ≤ a % m := Int.emod_nonneg a hpos.ne'
    generalize a % m = r at hreduced hgcd hclass hnonneg
    lift r to Nat using hnonneg
    lift m to Nat using hpos.le
    rw [Int.gcd_natCast_natCast] at hgcd
    have hposNat : 0 < m := by exact_mod_cast hpos
    rw [← hgcd, ← hreduced]
    constructor
    · intro hone
      obtain ⟨x, hx, hlt, hinverse⟩ := modinv_eq_ok hposNat hone
      have hrange : (0 : Int) ≤ x ∧ (x : Int) < m := ⟨Int.natCast_nonneg x, by exact_mod_cast hlt⟩
      have hr : (r : Int) * x ≡ 1 [ZMOD m] := by
        rw [← ZMod.intCast_eq_intCast_iff]
        exact_mod_cast hinverse
      have hax : a * x ≡ 1 [ZMOD m] := (hclass.mul_right x).symm.trans hr
      refine ⟨x, hx, ⟨hrange.1, hrange.2, hax⟩, ?_⟩
      rintro y ⟨hlow, hhigh, hay⟩
      exact eq_of_modEq_one hrange ⟨hlow, hhigh⟩ hax hay
    · intro hne
      exact ⟨_, modinv_eq_error hne⟩

/-- Three is its own inverse modulo eight, also as minus five; two has none modulo eight. -/
theorem modular_inverse_eight :
    (∃ x, modinv (-5) 8 = .ok x ∧ 0 ≤ x ∧ x < 8) ∧ ∃ text, modinv 2 8 = .error (.valueError text) := by
  obtain ⟨_, hinverse⟩ := modular_inverse
  constructor
  · obtain ⟨x, hx, ⟨hlow, hhigh, _⟩, _⟩ := (hinverse (-5) 8 (by decide)).1 (by decide)
    exact ⟨x, hx, hlow, hhigh⟩
  · exact (hinverse 2 8 (by decide)).2 (by decide)

/-! ### Elements as residues -/

section Residues

variable {grp : ModpGroup} {mac : Mac}

@[simp] theorem cast_reduce (n : Nat) : ((grp.reduce n).val : ZMod grp.P) = n := by
  simp [ModpGroup.reduce]

/-- An element is determined by its residue class. -/
theorem element_ext {x y : grp.Element} (h : (x.val : ZMod grp.P) = y.val) : x = y := by
  have hmod := (ZMod.natCast_eq_natCast_iff' x.val y.val grp.P).mp h
  rw [Nat.mod_eq_of_lt x.isLt, Nat.mod_eq_of_lt y.isLt] at hmod
  exact Fin.ext hmod

theorem cast_ne_zero {x : grp.Element} (h : x.val ≠ 0) : (x.val : ZMod grp.P) ≠ 0 := by
  intro hzero
  have hdvd := (ZMod.natCast_eq_zero_iff _ _).mp hzero
  exact absurd (Nat.le_of_dvd (Nat.pos_of_ne_zero h) hdvd) (Nat.not_le.mpr x.isLt)

@[simp] theorem cast_publicElement (exponent : Nat) :
    ((publicElement grp exponent).val : ZMod grp.P) = (grp.G : ZMod grp.P) ^ exponent := by
  simp [publicElement]

@[simp] theorem cast_mask (publicB pe : grp.Element) :
    ((mask grp publicB pe).val : ZMod grp.P) = publicB.val * pe.val := by
  simp [mask]

@[simp] theorem cast_sharedSecret (peerPublic : grp.Element) (exponent : Nat) :
    ((sharedSecret grp peerPublic exponent).val : ZMod grp.P) =
      (peerPublic.val : ZMod grp.P) ^ exponent := by
  simp [sharedSecret]

/-- Where the password element has no inverse, unmasking raises. -/
theorem unmask_eq_error {maskedB pe : grp.Element} (h : Nat.gcd pe.val grp.P ≠ 1) :
    unmask grp maskedB pe = .error (.valueError "no modular inverse exists") := by
  rw [unmask, modinv_eq_error h]
  rfl

/-- Where the password element has an inverse, unmasking multiplies by it. -/
theorem unmask_eq_ok (maskedB : grp.Element) {pe : grp.Element} (h : Nat.gcd pe.val grp.P = 1) :
    ∃ x : Nat, (pe.val : ZMod grp.P) * x = 1 ∧
      unmask grp maskedB pe = .ok (grp.reduce (maskedB.val * x)) := by
  obtain ⟨x, hx, _, hinv⟩ := modinv_eq_ok grp.P_pos h
  refine ⟨x, hinv, ?_⟩
  rw [unmask, hx]
  rfl

end Residues

/-! ### A prime modulus -/

section Prime

variable {grp : ModpGroup} {mac : Mac} [Fact grp.P.Prime]

theorem gcd_eq_one {x : grp.Element} (h : x.val ≠ 0) : Nat.gcd x.val grp.P = 1 := by
  have hprime : grp.P.Prime := Fact.out
  exact Nat.Coprime.symm ((Nat.Prime.coprime_iff_not_dvd hprime).mpr
    (Nat.not_dvd_of_pos_of_lt (Nat.pos_of_ne_zero h) x.isLt))

/-- Unmasking divides by the password element. -/
theorem unmask_div (maskedB : grp.Element) {pe : grp.Element} (h : pe.val ≠ 0) :
    ∃ publicB, unmask grp maskedB pe = .ok publicB ∧
      (publicB.val : ZMod grp.P) = maskedB.val * (pe.val : ZMod grp.P)⁻¹ := by
  obtain ⟨x, hx, hok⟩ := unmask_eq_ok maskedB (gcd_eq_one h)
  refine ⟨_, hok, ?_⟩
  rw [cast_reduce, Nat.cast_mul, eq_inv_of_mul_eq_one_right hx]

variable (grp mac)

/-- The password element is the square of a non-zero residue. -/
theorem secretToElement_square (password : Bytes) :
    ∃ root : ZMod grp.P, root ≠ 0 ∧
      ((secretToElement grp mac password).val : ZMod grp.P) = root ^ 2 := by
  set reduced := ofBytesBE (mac password mapLabel) % grp.P with hreduced
  by_cases h : reduced = 0
  · refine ⟨1, one_ne_zero, ?_⟩
    simp [secretToElement, ← hreduced, h]
  · refine ⟨(reduced : ZMod grp.P), ?_, ?_⟩
    · exact cast_ne_zero (x := (⟨reduced, Nat.mod_lt _ grp.P_pos⟩ : grp.Element)) h
    · simp [secretToElement, ← hreduced, h]

theorem secretToElement_ne_zero (password : Bytes) :
    (secretToElement grp mac password).val ≠ 0 := by
  obtain ⟨root, hroot, hsquare⟩ := secretToElement_square grp mac password
  intro hzero
  rw [hzero, Nat.cast_zero] at hsquare
  exact pow_ne_zero 2 hroot hsquare.symm

theorem isSquare_secretToElement (password : Bytes) :
    IsSquare ((secretToElement grp mac password).val : ZMod grp.P) := by
  obtain ⟨root, _, hsquare⟩ := secretToElement_square grp mac password
  exact ⟨root, by rw [hsquare, pow_two]⟩

variable {grp mac}

/-- Unmasking undoes masking. -/
theorem unmask_mask (publicB : grp.Element) {pe : grp.Element} (h : pe.val ≠ 0) :
    unmask grp (mask grp publicB pe) pe = .ok publicB := by
  obtain ⟨recovered, hok, hvalue⟩ := unmask_div (mask grp publicB pe) h
  rw [hok]
  congr 1
  apply element_ext
  rw [hvalue, cast_mask, mul_assoc, mul_inv_cancel₀ (cast_ne_zero h), mul_one]

end Prime

/-- The two Diffie-Hellman powers coincide. -/
theorem sharedSecret_comm (grp : ModpGroup) (a b : Nat) :
    sharedSecret grp (publicElement grp b) a = sharedSecret grp (publicElement grp a) b := by
  apply element_ext
  simp only [cast_sharedSecret, cast_publicElement]
  rw [← pow_mul, ← pow_mul, Nat.mul_comm]

end Priestly
