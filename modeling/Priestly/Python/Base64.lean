/-
Module: Priestly.Python.Base64
Layer: Python
Purpose: `base64.b64encode` and the strict `base64.b64decode(text, validate=True)` of CPython 3.12,
  the latter as the character loop of `binascii.a2b_base64` with its four-character quads, its
  padding rules and its error texts. Decoding inverts encoding; several texts may decode to the same
  bytes, since the unused low bits of the last character are not checked.
Imports: Priestly.Python.Builtins
Trusted boundary: human-reviewed spec of the standard library
Main exports: b64encode, b64decode, b64decode_b64encode
-/
import Priestly.Python.Builtins

namespace Priestly

open ByteCodec

/-- The base64 alphabet. -/
def b64Char (sextet : Nat) : Char :=
  if sextet < 26 then Char.ofNat (65 + sextet)
  else if sextet < 52 then Char.ofNat (71 + sextet)
  else if sextet < 62 then Char.ofNat (sextet - 4)
  else if sextet = 62 then '+'
  else '/'

/-- The six bits a character of the alphabet stands for. -/
def b64Value? (c : Char) : Option Nat :=
  if 'A' ≤ c ∧ c ≤ 'Z' then some (c.toNat - 65)
  else if 'a' ≤ c ∧ c ≤ 'z' then some (c.toNat - 71)
  else if '0' ≤ c ∧ c ≤ '9' then some (c.toNat + 4)
  else if c = '+' then some 62
  else if c = '/' then some 63
  else none

/-- Three octets become four characters; a last group of one or two octets is padded. -/
def b64encodeChars : Bytes → List Char
  | [] => []
  | [a] => [b64Char (a.toNat / 4), b64Char (a.toNat % 4 * 16), '=', '=']
  | [a, b] =>
      [b64Char (a.toNat / 4), b64Char (a.toNat % 4 * 16 + b.toNat / 16),
        b64Char (b.toNat % 16 * 4), '=']
  | a :: b :: c :: rest =>
      b64Char (a.toNat / 4) :: b64Char (a.toNat % 4 * 16 + b.toNat / 16) ::
        b64Char (b.toNat % 16 * 4 + c.toNat / 64) :: b64Char (c.toNat % 64) :: b64encodeChars rest

/-- `base64.b64encode(data).decode("ascii")`. -/
def b64encode (data : Bytes) : String := String.ofList (b64encodeChars data)

/-- The variables of the decoding loop. `quadPos` counts the characters of the current quad and
`leftchar` holds the bits of it that are not written yet. -/
structure A2bState where
  quadPos : Nat
  leftchar : Nat
  pads : Nat
  paddingStarted : Bool
  out : Bytes
deriving Repr

/-- One data character of the decoding loop. -/
def A2bState.push (state : A2bState) (sextet : Nat) : A2bState :=
  match state.quadPos with
  | 0 => { state with pads := 0, quadPos := 1, leftchar := sextet }
  | 1 =>
      { state with
        pads := 0
        quadPos := 2
        leftchar := sextet % 16
        out := state.out ++ [UInt8.ofNat (state.leftchar * 4 + sextet / 16)] }
  | 2 =>
      { state with
        pads := 0
        quadPos := 3
        leftchar := sextet % 4
        out := state.out ++ [UInt8.ofNat (state.leftchar * 16 + sextet / 4)] }
  | _ =>
      { state with
        pads := 0
        quadPos := 0
        leftchar := 0
        out := state.out ++ [UInt8.ofNat (state.leftchar * 64 + sextet)] }

/-- The decoding loop in strict mode. -/
def a2bLoop (state : A2bState) : List Char → Except Exn Bytes
  | [] =>
      if state.quadPos = 0 then .ok state.out
      else if state.quadPos = 1 then
        .error (.valueError s!"Invalid base64-encoded string: number of data characters ({state.out.length / 3 * 4 + 1}) cannot be 1 more than a multiple of 4")
      else .error (.valueError "Incorrect padding")
  | c :: cs =>
      if c = '=' then
        if 2 ≤ state.quadPos then
          -- A pad that completes the quad ends the data, so nothing may follow it.
          if 4 ≤ state.quadPos + (state.pads + 1) then
            if cs.isEmpty then .ok state.out
            else .error (.valueError "Excess data after padding")
          else a2bLoop { state with paddingStarted := true, pads := state.pads + 1 } cs
        else a2bLoop { state with paddingStarted := true } cs
      else match b64Value? c with
        | none => .error (.valueError "Only base64 data is allowed")
        | some sextet =>
            if state.paddingStarted then .error (.valueError "Discontinuous padding not allowed")
            else a2bLoop (state.push sextet) cs

/-- The state the decoding loop starts in. -/
def A2bState.start : A2bState :=
  { quadPos := 0, leftchar := 0, pads := 0, paddingStarted := false, out := [] }

/-- `base64.b64decode(text, validate=True)`. -/
def b64decode (text : String) : Except Exn Bytes :=
  if isAscii text then
    match text.toList with
    | '=' :: _ => .error (.valueError "Leading padding not allowed")
    | chars => a2bLoop .start chars
  else .error (.valueError "string argument should contain only ASCII characters")

/-! ### Decoding inverts encoding -/

theorem b64Value?_b64Char {sextet : Nat} (h : sextet < 64) :
    b64Value? (b64Char sextet) = some sextet := by
  have all : ∀ v : Fin 64, b64Value? (b64Char v) = some v.val := by decide
  exact all ⟨sextet, h⟩

theorem b64Char_ne_pad {sextet : Nat} (h : sextet < 64) : b64Char sextet ≠ '=' := by
  have all : ∀ v : Fin 64, b64Char v ≠ '=' := by decide
  exact all ⟨sextet, h⟩

theorem toNat_b64Char_lt {sextet : Nat} (h : sextet < 64) : (b64Char sextet).toNat < 128 := by
  have all : ∀ v : Fin 64, (b64Char v).toNat < 128 := by decide
  exact all ⟨sextet, h⟩

/-- A character of the alphabet met outside the padding is pushed. -/
private theorem a2bLoop_b64Char {state : A2bState} {sextet : Nat} {cs : List Char}
    (h : sextet < 64) (hpad : state.paddingStarted = false) :
    a2bLoop state (b64Char sextet :: cs) = a2bLoop (state.push sextet) cs := by
  rw [a2bLoop, if_neg (b64Char_ne_pad h), b64Value?_b64Char h]
  simp [hpad]

/-- Between two quads the loop carries nothing but the output. -/
private def A2bState.aligned (out : Bytes) : A2bState :=
  { quadPos := 0, leftchar := 0, pads := 0, paddingStarted := false, out := out }

private theorem ofNat_octet (octet : UInt8) {n : Nat} (h : n = octet.toNat) :
    UInt8.ofNat n = octet := by
  rw [h, UInt8.ofNat_toNat]

private theorem a2bLoop_b64encodeChars (data out : Bytes) :
    a2bLoop (.aligned out) (b64encodeChars data) = .ok (out ++ data) := by
  fun_induction b64encodeChars data generalizing out with
  | case1 => simp [a2bLoop, A2bState.aligned]
  | case2 a =>
      have ha : a.toNat < 256 := a.toNat_lt
      rw [a2bLoop_b64Char (by omega) rfl, a2bLoop_b64Char (by omega) rfl]
      have hoctet := ofNat_octet a
        (n := a.toNat / 4 * 4 + a.toNat % 4 * 16 / 16) (by omega)
      simp only [a2bLoop, A2bState.push, A2bState.aligned, hoctet]
      simp
  | case3 a b =>
      have ha : a.toNat < 256 := a.toNat_lt
      have hb : b.toNat < 256 := b.toNat_lt
      rw [a2bLoop_b64Char (by omega) rfl, a2bLoop_b64Char (by omega) rfl,
        a2bLoop_b64Char (by omega) rfl]
      have hfirst := ofNat_octet a
        (n := a.toNat / 4 * 4 + (a.toNat % 4 * 16 + b.toNat / 16) / 16) (by omega)
      have hsecond := ofNat_octet b
        (n := (a.toNat % 4 * 16 + b.toNat / 16) % 16 * 16 + b.toNat % 16 * 4 / 4) (by omega)
      simp only [a2bLoop, A2bState.push, A2bState.aligned, hfirst, hsecond]
      simp
  | case4 a b c rest ih =>
      have ha : a.toNat < 256 := a.toNat_lt
      have hb : b.toNat < 256 := b.toNat_lt
      have hc : c.toNat < 256 := c.toNat_lt
      rw [a2bLoop_b64Char (by omega) rfl, a2bLoop_b64Char (by omega) rfl,
        a2bLoop_b64Char (by omega) rfl, a2bLoop_b64Char (by omega) rfl]
      have hfirst := ofNat_octet a
        (n := a.toNat / 4 * 4 + (a.toNat % 4 * 16 + b.toNat / 16) / 16) (by omega)
      have hsecond := ofNat_octet b
        (n := (a.toNat % 4 * 16 + b.toNat / 16) % 16 * 16 + (b.toNat % 16 * 4 + c.toNat / 64) / 4)
        (by omega)
      have hthird := ofNat_octet c
        (n := (b.toNat % 16 * 4 + c.toNat / 64) % 4 * 64 + c.toNat % 64) (by omega)
      have hquad := ih (out ++ [a] ++ [b] ++ [c])
      simp only [A2bState.push, A2bState.aligned, hfirst, hsecond, hthird] at hquad ⊢
      rw [hquad]
      simp

private theorem isAscii_b64encode (data : Bytes) : isAscii (b64encode data) = true := by
  rw [isAscii, b64encode, String.toList_ofList]
  fun_induction b64encodeChars data with
  | case1 => rfl
  | case2 a =>
      have ha : a.toNat < 256 := a.toNat_lt
      simp [toNat_b64Char_lt (show a.toNat / 4 < 64 by omega),
        toNat_b64Char_lt (show a.toNat % 4 * 16 < 64 by omega)]
  | case3 a b =>
      have ha : a.toNat < 256 := a.toNat_lt
      have hb : b.toNat < 256 := b.toNat_lt
      simp [toNat_b64Char_lt (show a.toNat / 4 < 64 by omega),
        toNat_b64Char_lt (show a.toNat % 4 * 16 + b.toNat / 16 < 64 by omega),
        toNat_b64Char_lt (show b.toNat % 16 * 4 < 64 by omega)]
  | case4 a b c rest ih =>
      have ha : a.toNat < 256 := a.toNat_lt
      have hb : b.toNat < 256 := b.toNat_lt
      have hc : c.toNat < 256 := c.toNat_lt
      simp only [List.all_cons, ih, Bool.and_true, Bool.and_eq_true, decide_eq_true_eq]
      exact ⟨toNat_b64Char_lt (by omega), toNat_b64Char_lt (by omega), toNat_b64Char_lt (by omega),
        toNat_b64Char_lt (by omega)⟩

/-- `base64.b64decode(base64.b64encode(data), validate=True)` gives the data back. -/
theorem b64decode_b64encode (data : Bytes) : b64decode (b64encode data) = .ok data := by
  have hloop := a2bLoop_b64encodeChars data []
  rw [b64decode, if_pos (isAscii_b64encode data), b64encode, String.toList_ofList]
  split
  · rename_i tail hhead
    -- The first character of an encoding belongs to the alphabet.
    exfalso
    cases data with
    | nil => simp [b64encodeChars] at hhead
    | cons a rest =>
        have ha : a.toNat < 256 := a.toNat_lt
        have hne := b64Char_ne_pad (show a.toNat / 4 < 64 by omega)
        rcases rest with _ | ⟨b, _ | ⟨c, rest⟩⟩ <;>
          · simp only [b64encodeChars, List.cons.injEq] at hhead
            exact hne hhead.1
  · rw [List.nil_append] at hloop
    exact hloop

/-- The unused bits of a last character are ignored, so `QQ==` and `QR==` both spell the octet 65. -/
example : b64decode "QR==" = b64decode "QQ==" := by decide

end Priestly
