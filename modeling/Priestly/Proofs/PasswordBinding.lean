/-
Module: Priestly.Proofs.PasswordBinding
Layer: Proofs
Purpose: No challenge makes the shared secret independent of the password. Over a safe prime, the
  client's secret separates any two password elements, for every challenge it accepts and every
  exponent whose public element the server accepts.
Imports: Priestly.Proofs.Drivers, Priestly.Python.SampleRuntime
Trusted boundary: primality of `P` and `(P - 1) / 2` is a hypothesis
Main exports: shared_secret_binds_password
-/
import Priestly.Proofs.Drivers
import Priestly.Python.SampleRuntime

namespace Priestly

open ByteCodec

section Residues

variable {grp : ModpGroup}

/-- An element of the range is none of `0`, `1`, `-1`. -/
theorem inRange_residue {x : grp.Element} (h : grp.InRange x) :
    (x.val : ZMod grp.P) ≠ 0 ∧ (x.val : ZMod grp.P) ≠ 1 ∧ (x.val : ZMod grp.P) ≠ -1 := by
  obtain ⟨hlow, hhigh⟩ := h
  have hne : ∀ n : Nat, 1 < n → n < grp.P → (n : ZMod grp.P) ≠ 0 ∧ (n : ZMod grp.P) ≠ 1 := by
    intro n hn hnP
    refine ⟨?_, ?_⟩
    · intro hzero
      have hdvd := (ZMod.natCast_eq_zero_iff _ _).mp hzero
      exact absurd (Nat.le_of_dvd (by omega) hdvd) (by omega)
    · intro hone
      have hmod : n % grp.P = 1 % grp.P := by
        rw [← Nat.cast_one] at hone
        exact (ZMod.natCast_eq_natCast_iff' _ _ _).mp hone
      rw [Nat.mod_eq_of_lt hnP, Nat.mod_eq_of_lt (by omega)] at hmod
      omega
  refine ⟨(hne _ hlow x.isLt).1, (hne _ hlow x.isLt).2, ?_⟩
  intro hneg
  have hsucc : ((x.val + 1 : Nat) : ZMod grp.P) = 0 := by
    push_cast
    rw [hneg, neg_add_cancel]
  exact (hne (x.val + 1) (by omega) hhigh).1 hsucc

variable [Fact grp.P.Prime]

/-- Two password elements that differ give quotients whose `a`-th powers differ. -/
theorem sharedSecret_separates {mac : Mac} (hq : ((grp.P - 1) / 2).Prime) {maskedB : grp.Element}
    (hM : grp.InRange maskedB) {a : Nat} (ha : IsExponent grp a)
    (hA : grp.InRange (publicElement grp a)) {password password' : Bytes}
    (hne : secretToElement grp mac password ≠ secretToElement grp mac password')
    {publicB publicB' : grp.Element}
    (hB : (publicB.val : ZMod grp.P) =
      maskedB.val * ((secretToElement grp mac password).val : ZMod grp.P)⁻¹)
    (hB' : (publicB'.val : ZMod grp.P) =
      maskedB.val * ((secretToElement grp mac password').val : ZMod grp.P)⁻¹) :
    sharedSecret grp publicB a ≠ sharedSecret grp publicB' a := by
  obtain ⟨hA0, hA1, hAneg⟩ := inRange_residue hA
  rw [cast_publicElement] at hA0 hA1 hAneg
  have hsep := SafePrime.pow_div_squares_ne hq (isSquare_secretToElement grp mac password)
    (isSquare_secretToElement grp mac password')
    (cast_ne_zero (secretToElement_ne_zero grp mac password))
    (cast_ne_zero (secretToElement_ne_zero grp mac password')) (inRange_residue hM).1
    (fun h => hne (element_ext h)) ha.1 ha.2 hA0 hA1 hAneg
  intro hsame
  apply hsep
  rw [← hB, ← hB', ← cast_sharedSecret, ← cast_sharedSecret, hsame]

end Residues

/-- For every challenge the client accepts and every exponent whose public element the server
accepts, two passwords with different password elements lead the client to different shared secrets.
So a client whose password element is not the server's never computes the server's secret. -/
theorem shared_secret_binds_password (rt : Runtime) (grp : ModpGroup) (hP : grp.P.Prime)
    (hq : ((grp.P - 1) / 2).Prime) {challenge : String} {maskedB : grp.Element}
    (hM : parseElement rt grp challenge = .ok maskedB) {a : Nat} (ha : IsExponent grp a)
    {publicA : grp.Element}
    (hA : parseElement rt grp (elementHex grp (publicElement grp a)) = .ok publicA)
    {password password' : Bytes}
    (hne : secretToElement grp rt.hmac password ≠ secretToElement grp rt.hmac password') :
    ∃ publicB publicB' : grp.Element,
      unmask grp maskedB (secretToElement grp rt.hmac password) = .ok publicB ∧
      unmask grp maskedB (secretToElement grp rt.hmac password') = .ok publicB' ∧
      sharedSecret grp publicB a ≠ sharedSecret grp publicB' a ∧
      ∀ b, maskedB = mask grp (publicElement grp b) (secretToElement grp rt.hmac password) →
        sharedSecret grp publicB' a ≠ sharedSecret grp publicA b := by
  have : Fact grp.P.Prime := ⟨hP⟩
  have hrangeA := inRange_of_parseElement_elementHex hA
  have hsame : publicA = publicElement grp a := by
    rw [parseElement_elementHex hrangeA] at hA
    exact (Except.ok.inj hA).symm
  obtain ⟨publicB, hok, hB⟩ := unmask_div maskedB (secretToElement_ne_zero grp rt.hmac password)
  obtain ⟨publicB', hok', hB'⟩ := unmask_div maskedB (secretToElement_ne_zero grp rt.hmac password')
  have hsep := sharedSecret_separates hq (parseElement_inRange hM).1 ha hrangeA hne hB hB'
  refine ⟨publicB, publicB', hok, hok', hsep, ?_⟩
  intro b hb
  have hpublicB : publicB = publicElement grp b := by
    rw [hb, unmask_mask _ (secretToElement_ne_zero grp rt.hmac password)] at hok
    exact (Except.ok.inj hok).symm
  rw [hsame, ← sharedSecret_comm, ← hpublicB]
  exact hsep.symm

/-- A group small enough to compute in: 23 is a safe prime. -/
def group23 : ModpGroup where
  P := 23
  G := 2
  elementBytes := 1
  one_lt_P := by decide
  P_le := by decide

theorem shared_secret_binds_password_group23 :
    ∃ publicB publicB' : group23.Element,
      unmask group23 (group23.reduce 5)
        (secretToElement group23 hmacSha256 (asciiBytes "alpha")) = .ok publicB ∧
      unmask group23 (group23.reduce 5)
        (secretToElement group23 hmacSha256 (asciiBytes "beta")) = .ok publicB' ∧
      sharedSecret group23 publicB 3 ≠ sharedSecret group23 publicB' 3 ∧
      ∀ b, group23.reduce 5 =
          mask group23 (publicElement group23 b)
            (secretToElement group23 hmacSha256 (asciiBytes "alpha")) →
        sharedSecret group23 publicB' 3 ≠ sharedSecret group23 (group23.reduce 8) b := by
  have hchallenge : parseElement (sampleRuntime hmacSha256) group23 "05" = .ok (group23.reduce 5) := by
    decide +kernel
  have hpublic : parseElement (sampleRuntime hmacSha256) group23
      (elementHex group23 (publicElement group23 3)) = .ok (group23.reduce 8) := by
    decide +kernel
  exact shared_secret_binds_password (sampleRuntime hmacSha256) group23 (by decide) (by decide)
    hchallenge (by decide) hpublic (by decide +kernel)

end Priestly
