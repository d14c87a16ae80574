/-
Module: Priestly.Proofs.UiCovenant
Layer: Proofs
Purpose: The primitives of the page compute what the primitives of the nodes compute: truncating
  division with its sign fixes is the modulo of the floor, square-and-multiply is the power, and the byte
  helpers are the big-endian and hexadecimal codecs.
Imports: Priestly.Ui.Covenant, Priestly.Proofs.CovenantAlgebra, Priestly.Proofs.Drivers
Trusted boundary: none
Main exports: Ui.modPow_eq, Ui.modinv_eq, Ui.bytesToBig_eq, Ui.browser_arithmetic, Ui.secretToElement_eq,
  Ui.confirmMac_eq, Ui.deriveKeys_eq
-/
import Mathlib.Data.Int.ModEq
import Priestly.Proofs.CovenantAlgebra
import Priestly.Proofs.Drivers
import Priestly.Ui.Covenant

namespace Priestly

namespace Ui

open ByteCodec Js

/-! ### Arithmetic -/

/-- The sign fix turns the truncating remainder into the one that is never negative. -/
theorem tmod_fix (x : Int) {m : Int} (hm : 0 < m) : (x.tmod m + m).tmod m = x % m := by
  have hlower : -m < x.tmod m := Int.lt_tmod_of_pos x hm
  have hnonneg : 0 ≤ x.tmod m + m := by omega
  have hsame : x.tmod m % m = x % m := by
    have hdef : x.tmod m = x - m * x.tdiv m := Int.tmod_def x m
    rw [hdef, Int.sub_mul_emod_self_left]
  rw [Int.tmod_eq_emod_of_nonneg hnonneg, Int.add_emod_right, hsame]

/-- The page finds the inverse that the nodes find, or none when they find none. -/
theorem modinv_eq (a : Int) {m : Int} (hm : 0 < m) :
    modinv a m = (Priestly.modinv a m).mapError fun _ => .error "no inverse" := by
  have hfmod : a.fmod m = a % m := Int.fmod_eq_emod_of_nonneg a hm.le
  have hsame : egcd (a % m) m = extendedGcd (a % m) m :=
    IntDivision.loop_congr IntDivision.trunc_roundsNonneg IntDivision.floor_roundsNonneg
      (Int.emod_nonneg a hm.ne') hm.le
  rw [modinv, Priestly.modinv, tmod_fix a hm, hfmod, hsame]
  rcases extendedGcd (a % m) m with ⟨g, x, y⟩
  by_cases hg : g = 1
  · simp only [hg, ne_eq, not_true_eq_false, if_false, tmod_fix x hm,
      Int.fmod_eq_emod_of_nonneg x hm.le]
    rfl
  · simp only [ne_eq, hg, not_false_eq_true, if_true]
    rfl

/-- The loop multiplies the result by the power that is left. -/
theorem modPowLoop_eq {mod base r : Int} (hbase : 0 ≤ base) (hr : 0 ≤ r) (hlt : r < mod) (exp : Nat) :
    modPowLoop mod base r exp = r * base ^ exp % mod := by
  have hmod : 0 < mod := lt_of_le_of_lt hr hlt
  fun_induction modPowLoop mod base r exp with
  | case1 base r => rw [pow_zero, mul_one, Int.emod_eq_of_lt hr hlt]
  | case2 base r exp hexp ih =>
      have hsquare : (base * base).tmod mod = base * base % mod :=
        Int.tmod_eq_emod_of_nonneg (mul_nonneg hbase hbase)
      have hproduct : (r * base).tmod mod = r * base % mod :=
        Int.tmod_eq_emod_of_nonneg (mul_nonneg hr hbase)
      have hsquared : base * base % mod ≡ base ^ 2 [ZMOD mod] := by
        rw [pow_two]
        exact Int.mod_modEq _ _
      have hlarge : 0 ≤ base * base % mod := Int.emod_nonneg _ hmod.ne'
      rw [hsquare]
      rw [hsquare] at ih
      by_cases hodd : exp % 2 = 1
      · have hfactor : 0 ≤ r * base % mod := Int.emod_nonneg _ hmod.ne'
        have hsplit : r * base ^ exp = r * base * (base ^ 2) ^ (exp / 2) := by
          have hexp' : exp = 2 * (exp / 2) + 1 := by omega
          rw [← pow_mul]
          nth_rewrite 1 [hexp']
          ring
        rw [if_pos hodd, hproduct]
        simp only [dif_pos hodd, hproduct] at ih
        rw [ih hlarge hfactor (Int.emod_lt_of_pos _ hmod), hsplit]
        exact (Int.mod_modEq _ _).mul (hsquared.pow _)
      · have hsplit : r * base ^ exp = r * (base ^ 2) ^ (exp / 2) := by
          have hexp' : exp = 2 * (exp / 2) := by omega
          rw [← pow_mul]
          nth_rewrite 1 [hexp']
          rfl
        rw [if_neg hodd]
        simp only [dif_neg hodd] at ih
        rw [ih hlarge hr hlt, hsplit]
        exact (Int.ModEq.refl r).mul (hsquared.pow _)

/-- Square-and-multiply computes the power. -/
theorem modPow_eq {base mod : Int} (hbase : 0 ≤ base) (hmod : 1 < mod) (exp : Nat) :
    modPow base exp mod = base ^ exp % mod := by
  have hpos : 0 < mod := by omega
  rw [modPow, Int.toNat_natCast, Int.tmod_eq_emod_of_nonneg hbase,
    modPowLoop_eq (Int.emod_nonneg base hpos.ne') Int.one_nonneg hmod, one_mul]
  exact (Int.mod_modEq base mod).pow exp

/-! ### Bytes -/

/-- `bytesToBig` reads big-endian numbers. -/
theorem bytesToBig_eq (b : Bytes) : bytesToBig b = ofBytesBE b := by
  have hstep : ∀ (x : Nat) (v : UInt8), (x <<< 8) ||| v.toNat = x * 256 + v.toNat := by
    intro x v
    rw [← Nat.shiftLeft_add_eq_or_of_lt (i := 8) v.toNat_lt x, Nat.shiftLeft_eq]
  simp only [bytesToBig, ofBytesBE, hstep]

/-- `bigToBytes` writes them. -/
theorem bigToBytes_eq (n len : Nat) : bigToBytes n len = toBytesBE len n := by
  induction len generalizing n with
  | zero => rfl
  | succ len ih =>
      have hshift : (n : Int) >>> (8 : Nat) = ((n / 256 : Nat) : Int) := by
        rw [Int.shiftRight_eq_div_pow]
        rfl
      have hlow : ((n : Int) % 256).toNat = n % 256 := rfl
      have hbyte : UInt8.ofNat (n % 256) = UInt8.ofNat n := by
        apply UInt8.toNat.inj
        simp
      rw [bigToBytes, toBytesBE, hshift, ih, hlow, hbyte]

/-- The number behind the bytes `bigToBytes` writes is read back from them. -/
theorem bytesToBig_bigToBytes {n len : Nat} (h : n < 256 ^ len) : bytesToBig (bigToBytes n len) = n := by
  rw [bytesToBig_eq, bigToBytes_eq, ofBytesBE_toBytesBE_of_lt h]

/-- The arithmetic of the page is the arithmetic of the nodes: `modPow` is the modular power, `modinv` returns
and throws where the `modinv` of the nodes returns and raises, and the byte helpers are the big-endian
encoding and its inverse. -/
theorem browser_arithmetic :
    (∀ base exp mod : BigInt, 0 ≤ base → 0 ≤ exp → 1 < mod →
      modPow base exp mod = base ^ exp.toNat % mod) ∧
      (∀ a m : BigInt, 1 < m →
        (∀ x, modinv a m = .ok x ↔ Priestly.modinv a m = .ok x) ∧
          ((∃ thrown, modinv a m = .error thrown) ↔ ∃ raised, Priestly.modinv a m = .error raised)) ∧
        ∀ (x : BigInt) (len : Nat), 0 ≤ x → x < 256 ^ len →
          bytesToBig (bigToBytes x len) = x ∧ bigToBytes x len = toBytesBE len x.toNat := by
  refine ⟨?_, ?_, ?_⟩
  · intro base exp mod hbase hexp hmod
    lift exp to Nat using hexp
    exact modPow_eq hbase hmod exp
  · intro a m hm
    rw [modinv_eq a (zero_lt_one.trans hm)]
    cases Priestly.modinv a m with
    | error raised => simp [Except.mapError]
    | ok inverse => simp [Except.mapError]
  · intro x len hx hlt
    lift x to Nat using hx
    have hbound : x < 256 ^ len := by exact_mod_cast hlt
    exact ⟨bytesToBig_bigToBytes hbound, bigToBytes_eq x len⟩

/-- Small operands, with a negative one, one without an inverse, and a number of two bytes. -/
theorem browser_arithmetic_samples :
    modPow 3 5 7 = 5 ∧ (∃ x, Priestly.modinv (-5) 8 = .ok x ∧ modinv (-5) 8 = .ok x) ∧
      (∃ thrown, modinv 2 8 = .error thrown) ∧ bytesToBig (bigToBytes 258 2) = 258 := by
  obtain ⟨hpower, hinverse, hbytes⟩ := browser_arithmetic
  have hfive : Priestly.modinv (-5) 8 = .ok 3 := by
    simp [Priestly.modinv, extendedGcd, IntDivision.loop, IntDivision.floor]
  refine ⟨?_, ⟨3, hfive, ((hinverse (-5) 8 (by decide)).1 3).mpr hfive⟩, ?_, ?_⟩
  · rw [hpower 3 5 7 (by decide) (by decide) (by decide)]
    decide
  · apply (hinverse 2 8 (by decide)).2.mpr
    exists .valueError "no modular inverse exists"
    simp [Priestly.modinv, extendedGcd, IntDivision.loop, IntDivision.floor]
  · exact (hbytes 258 2 (by decide) (by decide)).1

/-- `bytesToHex` writes two lowercase digits for each byte. -/
theorem bytesToHex_eq (b : Bytes) : bytesToHex b = hexString b := by
  have hchars : b.flatMap byteToHex = hexChars b := by
    induction b with
    | nil => rfl
    | cons v b ih => rw [List.flatMap_cons, ih, byteToHex_eq, hexChars, List.cons_append, List.singleton_append]
  rw [bytesToHex, hchars, hexString]

/-- Two digits are read back as the byte they spell. -/
theorem toUint8_byteToHex (v : UInt8) :
    ((byteToHex v).flatMap charUnits).length = 2 ∧
      toUint8 (parseIntBase16 ((byteToHex v).flatMap charUnits)) = v := by
  have all : ∀ n : Fin 256, ((byteToHex (UInt8.ofNat n.val)).flatMap charUnits).length = 2 ∧
      toUint8 (parseIntBase16 ((byteToHex (UInt8.ofNat n.val)).flatMap charUnits)) = UInt8.ofNat n.val := by
    decide +kernel
  have hv := all ⟨v.toNat, v.toNat_lt⟩
  rw [UInt8.ofNat_toNat] at hv
  exact hv

/-- `hexToBytes` reads back what `bytesToHex` writes. -/
theorem hexToBytes_hexString (b : Bytes) : hexToBytes (hexString b) = b := by
  have hunits : utf16 (hexString b) = b.flatMap fun v => (byteToHex v).flatMap charUnits := by
    rw [← bytesToHex_eq, utf16, bytesToHex, String.toList_ofList, List.flatMap_assoc]
  have hlength : (utf16 (hexString b)).length / 2 = b.length := by
    rw [hunits, List.length_flatMap, List.map_congr_left fun v _ => (toUint8_byteToHex v).1,
      List.map_const', List.sum_replicate_nat]
    omega
  rw [hexToBytes, hlength, hunits]
  clear hunits hlength
  induction b with
  | nil => rfl
  | cons v b ih =>
      obtain ⟨htwo, hvalue⟩ := toUint8_byteToHex v
      have hshift : ∀ i, ((v :: b).flatMap fun v => (byteToHex v).flatMap charUnits).drop ((i + 1) * 2) =
          (b.flatMap fun v => (byteToHex v).flatMap charUnits).drop (i * 2) := by
        intro i
        rw [List.flatMap_cons, Nat.add_one_mul, Nat.add_comm, ← List.drop_drop, ← htwo, List.drop_left]
      have hfirst : (((v :: b).flatMap fun v => (byteToHex v).flatMap charUnits).drop (0 * 2)).take 2 =
          (byteToHex v).flatMap charUnits := by
        rw [Nat.zero_mul, List.drop_zero, List.flatMap_cons, ← htwo, List.take_left]
      rw [List.length_cons, List.range_succ_eq_map, List.map_cons, List.map_map, hfirst, hvalue]
      congr 1
      refine Eq.trans ?_ ih
      apply List.map_congr_left
      intro i _
      rw [Function.comp_apply, Nat.succ_eq_add_one, hshift]

/-- Both sides spell an ASCII label alike. -/
theorem utf8Encode_ascii {text : String} (h : isAscii text = true) :
    utf8Encode text = asciiBytes text := by
  have hchar : ∀ c ∈ text.toList, String.utf8EncodeChar c = [UInt8.ofNat c.toNat] := by
    intro c hc
    have hbound : c.toNat < 128 := of_decide_eq_true (List.all_eq_true.mp h c hc)
    exact if_pos (Nat.le_of_lt_succ hbound)
  rw [utf8Encode_eq, asciiBytes, List.flatMap_def, List.map_congr_left hchar, ← List.flatMap_def,
    List.map_eq_flatMap]

/-! ### Primitives -/

section Primitives

variable {grp : ModpGroup} {mac : Mac}

/-- A key that is not empty is imported. -/
theorem hmac_eq {keyBytes : Bytes} (h : keyBytes ≠ []) (dataBytes : Bytes) :
    hmac mac keyBytes dataBytes = .ok (mac keyBytes dataBytes) := if_neg h

/-- The wire form of an element. -/
theorem bigToBytes_val (x : grp.Element) :
    bigToBytes (x.val : Int) grp.elementBytes = grp.toBytes x := bigToBytes_eq x.val grp.elementBytes

/-- A public element, or a shared secret. -/
theorem modPow_element (base exp : Nat) :
    modPow base exp grp.P = ((grp.reduce (base ^ exp)).val : Int) := by
  have hP : (1 : Int) < grp.P := by exact_mod_cast grp.one_lt_P
  rw [modPow_eq (Int.natCast_nonneg base) hP]
  push_cast [ModpGroup.reduce]
  rfl

/-- The password element. -/
theorem secretToElement_eq {pwBytes : Bytes} (h : pwBytes ≠ []) :
    secretToElement grp mac pwBytes = .ok ((Priestly.secretToElement grp mac pwBytes).val : Int) := by
  have hlabel : utf8Encode "Priestly-Covenant-Map" = mapLabel := utf8Encode_ascii (by decide)
  have hval : (bytesToBig (mac pwBytes mapLabel)).tmod grp.P =
      ((ofBytesBE (mac pwBytes mapLabel) % grp.P : Nat) : Int) := by
    rw [bytesToBig_eq]
    rfl
  rw [secretToElement, hmac_eq h, hlabel, Js.ok_bind]
  simp only [hval, Priestly.secretToElement]
  by_cases hzero : ofBytesBE (mac pwBytes mapLabel) % grp.P = 0
  · rw [hzero]
    exact congrArg Except.ok (modPow_element 1 2)
  · have hcast : ((ofBytesBE (mac pwBytes mapLabel) % grp.P : Nat) : Int) ≠ 0 := by
      exact_mod_cast hzero
    rw [if_neg hcast, if_neg hzero]
    exact congrArg Except.ok (modPow_element _ 2)

/-- The confirmation tag. -/
theorem confirmMac_eq (shared : grp.Element) (commit : Bytes) {role : String}
    (hrole : isAscii role = true) (pub : grp.Element) :
    confirmMac grp mac shared.val commit role pub.val =
      .ok (Priestly.confirmMac grp mac shared commit (asciiBytes role) pub) := by
  rw [confirmMac, bigToBytes_val, bigToBytes_val, hmac_eq (toBytes_ne_nil shared), utf8Encode_ascii hrole]
  rfl

/-- The keys the page keeps are the MAC keys of the session. -/
theorem deriveKeys_eq (shared : grp.Element) :
    deriveKeys grp mac shared.val =
      .ok { clientMac := (sessionKeys grp mac shared).clientMac
            serverMac := (sessionKeys grp mac shared).serverMac } := by
  have hexpand : ∀ label : String, isAscii label = true →
      hkdfExpand mac (grp.toBytes shared) (utf8Encode label) 32 =
        .ok (subkey grp mac shared label) := by
    intro label hascii
    rw [hkdfExpand, hmac_eq (toBytes_ne_nil shared), utf8Encode_ascii hascii]
    rfl
  rw [deriveKeys, bigToBytes_val]
  rw [hexpand _ (by decide), hexpand _ (by decide)]
  rfl

end Primitives

end Ui

end Priestly
