/-
Module: Priestly.Js.Encoding
Layer: Js
Purpose: The encodings the page leans on: `btoa` and `atob` on strings of code units, `TextDecoder`, the
  eight octets `DataView.setBigUint64` writes, and the Numbers integers are read as. The JSON functions of the engine are a parameter.
Imports: Priestly.Js.Builtins, Priestly.Python.Base64, Priestly.Python.Text, Priestly.Protocol.Packets
Trusted boundary: human-reviewed spec of the platform; the fields of `JsonCodec` stand for the engine
Main exports: JsonCodec, btoa, atob, textDecode, setBigUint64, toNumber, atob_b64encode
-/
import Priestly.Js.Builtins
import Priestly.Protocol.Packets
import Priestly.Python.Base64
import Priestly.Python.Text

namespace Priestly

namespace Js

open ByteCodec

/-- `JSON.stringify`, which writes lone surrogates as escapes, and `JSON.parse`. -/
structure JsonCodec where
  stringify : Json → String
  parse : String → Except JsError Json

/-! ### Base64 -/

/-- `btoa(text)`: the encoding of RFC 4648 of the code units, which have to be octets. -/
def btoa (units : List Nat) : Except JsError String :=
  if units.all (· < 256) then .ok (b64encode (units.map UInt8.ofNat))
  else .error .invalidCharacterError

/-- ASCII whitespace. -/
def isAsciiSpace (c : Char) : Bool := c.toNat ∈ [0x09, 0x0A, 0x0C, 0x0D, 0x20]

/-- Up to two pads at the end of a text whose length is a multiple of four are dropped. -/
def dropPads (text : List Char) : List Char :=
  if text.length % 4 = 0 then
    match text.reverse with
    | '=' :: '=' :: rest => rest.reverse
    | '=' :: rest => rest.reverse
    | _ => text
  else text

/-- The octets of the sextets; the bits of a last group that fill no octet are dropped. -/
def octetsOfSextets : List Nat → List Nat
  | a :: b :: c :: d :: rest =>
      (a * 4 + b / 16) :: (b % 16 * 16 + c / 4) :: (c % 4 * 64 + d) :: octetsOfSextets rest
  | [a, b, c] => [a * 4 + b / 16, b % 16 * 16 + c / 4]
  | [a, b] => [a * 4 + b / 16]
  | _ => []

/-- `atob(text)`, the forgiving decoding of the HTML standard. -/
def atob (text : String) : Except JsError (List Nat) :=
  let data := dropPads (text.toList.filter fun c => !isAsciiSpace c)
  if data.length % 4 = 1 then .error .invalidCharacterError
  else match data.mapM b64Value? with
    | none => .error .invalidCharacterError
    | some sextets => .ok (octetsOfSextets sextets)

/-! ### Text and numbers -/

/-- Drop a byte order mark at the start. -/
def dropMark : Bytes → Bytes
  | 0xEF :: 0xBB :: 0xBF :: rest => rest
  | bytes => bytes

/-- `new TextDecoder().decode(bytes)`: what is malformed is replaced. -/
def textDecode (bytes : Bytes) : String :=
  match utf8Decode (dropMark bytes) with
  | some text => text
  | none => utf8DecodeReplace (dropMark bytes)

/-- The octets of `view.setBigUint64(0, n)`, which takes the number modulo 2^64. -/
def setBigUint64 (n : Int) : Bytes := toBytesBE 8 (n % 2 ^ 64).toNat

/-- The Number nearest to an integer: 53 significant bits, ties to the even one. -/
def toNumber (n : Int) : Int :=
  let shift := n.natAbs.log2 + 1 - 53
  let quotient := n.natAbs / 2 ^ shift
  let remainder := n.natAbs % 2 ^ shift
  let rounded :=
    if 2 ^ shift < 2 * remainder ∨ (2 ^ shift = 2 * remainder ∧ quotient % 2 = 1) then quotient + 1
    else quotient
  n.sign * (rounded * 2 ^ shift : Nat)

/-- Safe integers are Numbers. -/
theorem toNumber_of_lt {n : Int} (h : n.natAbs < 2 ^ 53) : toNumber n = n := by
  have hshift : n.natAbs.log2 + 1 - 53 = 0 := by
    by_cases hzero : n.natAbs = 0
    · rw [hzero]
      rfl
    · have hlog := (Nat.log2_lt hzero).mpr h
      omega
  rw [toNumber, hshift]
  have hround : ¬ (2 ^ 0 < 2 * (n.natAbs % 2 ^ 0) ∨
      (2 ^ 0 = 2 * (n.natAbs % 2 ^ 0) ∧ n.natAbs / 2 ^ 0 % 2 = 1)) := by omega
  simp only [hround, if_false]
  rw [pow_zero, Nat.div_one, Nat.mul_one]
  exact Int.sign_mul_natAbs n

/-! ### Decoding inverts encoding -/

/-- The sextets of the octets. -/
def sextetsOf : Bytes → List Nat
  | [] => []
  | [a] => [a.toNat / 4, a.toNat % 4 * 16]
  | [a, b] => [a.toNat / 4, a.toNat % 4 * 16 + b.toNat / 16, b.toNat % 16 * 4]
  | a :: b :: c :: rest =>
      a.toNat / 4 :: (a.toNat % 4 * 16 + b.toNat / 16) :: (b.toNat % 16 * 4 + c.toNat / 64) ::
        c.toNat % 64 :: sextetsOf rest

theorem sextetsOf_lt (data : Bytes) : ∀ sextet ∈ sextetsOf data, sextet < 64 := by
  fun_induction sextetsOf data with
  | case1 => exact nofun
  | case2 a =>
      have ha : a.toNat < 256 := a.toNat_lt
      simp only [List.mem_cons, List.not_mem_nil, or_false, forall_eq_or_imp, forall_eq]
      omega
  | case3 a b =>
      have ha : a.toNat < 256 := a.toNat_lt
      have hb : b.toNat < 256 := b.toNat_lt
      simp only [List.mem_cons, List.not_mem_nil, or_false, forall_eq_or_imp, forall_eq]
      omega
  | case4 a b c rest ih =>
      have ha : a.toNat < 256 := a.toNat_lt
      have hb : b.toNat < 256 := b.toNat_lt
      have hc : c.toNat < 256 := c.toNat_lt
      simp only [List.mem_cons, forall_eq_or_imp]
      refine ⟨by omega, by omega, by omega, by omega, ih⟩

/-- Octets and sextets carry the same bits. -/
theorem octetsOfSextets_sextetsOf (data : Bytes) :
    octetsOfSextets (sextetsOf data) = data.map UInt8.toNat := by
  fun_induction sextetsOf data with
  | case1 => rfl
  | case2 a =>
      have ha : a.toNat < 256 := a.toNat_lt
      simp only [octetsOfSextets, List.map_cons, List.map_nil, List.cons.injEq, and_true]
      omega
  | case3 a b =>
      have ha : a.toNat < 256 := a.toNat_lt
      have hb : b.toNat < 256 := b.toNat_lt
      simp only [octetsOfSextets, List.map_cons, List.map_nil, List.cons.injEq, and_true]
      omega
  | case4 a b c rest ih =>
      have ha : a.toNat < 256 := a.toNat_lt
      have hb : b.toNat < 256 := b.toNat_lt
      have hc : c.toNat < 256 := c.toNat_lt
      simp only [octetsOfSextets, List.map_cons, List.cons.injEq, ih, and_true]
      omega

/-- An encoding is the characters of the sextets and pads up to a multiple of four. -/
theorem b64encodeChars_eq (data : Bytes) : ∃ pads, b64encodeChars data =
    (sextetsOf data).map b64Char ++ List.replicate pads '=' ∧ pads ≤ 2 ∧
      ((sextetsOf data).length + pads) % 4 = 0 := by
  fun_induction b64encodeChars data with
  | case1 => exact ⟨0, rfl, by omega, rfl⟩
  | case2 a => exact ⟨2, rfl, le_refl 2, by simp [sextetsOf]⟩
  | case3 a b => exact ⟨1, rfl, by decide, by simp [sextetsOf]⟩
  | case4 a b c rest ih =>
      obtain ⟨pads, hchars, hpads, hlength⟩ := ih
      refine ⟨pads, ?_, hpads, ?_⟩
      · rw [hchars]
        rfl
      · simp only [sextetsOf, List.length_cons]
        omega

/-- The pads of an encoding are dropped, and nothing else. -/
theorem dropPads_append {chars : List Char} (hchars : ∀ c ∈ chars, c ≠ '=') {pads : Nat}
    (hpads : pads ≤ 2) (hlength : (chars.length + pads) % 4 = 0) :
    dropPads (chars ++ List.replicate pads '=') = chars := by
  have hfour : (chars ++ List.replicate pads '=').length % 4 = 0 := by
    rw [List.length_append, List.length_replicate]
    exact hlength
  have hlast : ∀ rest : List Char, chars.reverse ≠ '=' :: rest := by
    intro rest hrest
    apply hchars '=' ?_ rfl
    rw [← List.mem_reverse, hrest]
    exact List.mem_cons_self
  rw [dropPads, if_pos hfour, List.reverse_append, List.reverse_replicate]
  obtain rfl | rfl | rfl : pads = 0 ∨ pads = 1 ∨ pads = 2 := by omega
  · rw [List.replicate_zero, List.nil_append, List.append_nil]
    split
    · exact absurd ‹_› (hlast _)
    · exact absurd ‹_› (hlast _)
    · rfl
  · cases hreverse : chars.reverse with
    | nil =>
        rw [List.reverse_eq_nil_iff] at hreverse
        rw [hreverse]
        rfl
    | cons c rest =>
        have hc : c ≠ '=' := by
          rintro rfl
          exact hlast rest hreverse
        have hback : chars = (c :: rest).reverse := by rw [← hreverse, List.reverse_reverse]
        show (match '=' :: c :: rest with
          | '=' :: '=' :: rest => rest.reverse
          | '=' :: rest => rest.reverse
          | _ => chars ++ ['=']) = chars
        split
        · rename_i heq
          exact absurd (List.cons.inj (List.cons.inj heq).2).1 hc
        · rename_i heq
          rw [hback, ← (List.cons.inj heq).2]
        · rename_i hnone
          exact absurd rfl (hnone _)
  · show chars.reverse.reverse = chars
    rw [List.reverse_reverse]

/-- No character of an encoding is white space. -/
theorem not_isAsciiSpace_b64 (data : Bytes) : ∀ c ∈ b64encodeChars data, isAsciiSpace c = false := by
  obtain ⟨pads, hchars, _, _⟩ := b64encodeChars_eq data
  have hspace : ∀ v : Fin 64, isAsciiSpace (b64Char v) = false := by decide
  intro c hc
  rw [hchars] at hc
  rcases List.mem_append.mp hc with hin | hpad
  · obtain ⟨sextet, hsextet, rfl⟩ := List.mem_map.mp hin
    exact hspace ⟨sextet, sextetsOf_lt data sextet hsextet⟩
  · rw [List.eq_of_mem_replicate hpad]
    decide

/-- `atob` gives back the octets that were encoded. -/
theorem atob_b64encode (data : Bytes) : atob (b64encode data) = .ok (data.map UInt8.toNat) := by
  obtain ⟨pads, hchars, hpads, hlength⟩ := b64encodeChars_eq data
  have hfilter : (b64encodeChars data).filter (fun c => !isAsciiSpace c) = b64encodeChars data := by
    apply List.filter_eq_self.mpr
    intro c hc
    rw [not_isAsciiSpace_b64 data c hc]
    rfl
  have hdata : dropPads (b64encodeChars data) = (sextetsOf data).map b64Char := by
    rw [hchars]
    apply dropPads_append ?_ hpads
    · rw [List.length_map]
      exact hlength
    · intro c hc
      obtain ⟨sextet, hsextet, rfl⟩ := List.mem_map.mp hc
      exact b64Char_ne_pad (sextetsOf_lt data sextet hsextet)
  have hvalues : ((sextetsOf data).map b64Char).mapM b64Value? = some (sextetsOf data) := by
    have hall := sextetsOf_lt data
    generalize sextetsOf data = sextets at hall
    induction sextets with
    | nil => rfl
    | cons sextet rest ih =>
        obtain ⟨hsextet, hrest⟩ := List.forall_mem_cons.mp hall
        simp [b64Value?_b64Char hsextet, ih hrest]
  have hnot : ¬ (sextetsOf data).length % 4 = 1 := by omega
  simp only [atob, b64encode, String.toList_ofList, hfilter, hdata, List.length_map, hnot, if_false,
    hvalues, octetsOfSextets_sextetsOf]

/-- Octets can always be encoded. -/
theorem btoa_octets (data : Bytes) : btoa (data.map UInt8.toNat) = .ok (b64encode data) := by
  have hall : (data.map UInt8.toNat).all (· < 256) = true := by
    simp only [List.all_map, List.all_eq_true]
    intro byte _
    exact decide_eq_true byte.toNat_lt
  have hback : (data.map UInt8.toNat).map UInt8.ofNat = data := by
    rw [List.map_map]
    exact List.map_id'' (fun byte => UInt8.ofNat_toNat) data
  rw [btoa, if_pos hall, hback]

end Js

end Priestly
