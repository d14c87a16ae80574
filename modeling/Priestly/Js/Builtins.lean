/-
Module: Priestly.Js.Builtins
Layer: Js
Purpose: The parts of ECMAScript the page leans on: strings as UTF-16 code units, `parseInt(text, 16)`,
  what a `Uint8Array` makes of a number, `number.toString(16).padStart(2, "0")`, and errors. BigInts are
  integers, with `/` and `%` rounding towards zero.
Imports: Priestly.Lib.Bytes
Trusted boundary: human-reviewed spec of the language
Main exports: JsError, utf16, trim, parseIntBase16, toUint8, byteToHex
-/
import Priestly.Lib.Bytes

namespace Priestly

namespace Js

open ByteCodec

/-! ### Errors -/

/-- What the modelled scripts throw: an `Error` with its message, the `DataError` of WebCrypto, the
`InvalidCharacterError` of `btoa` and `atob`, the `SyntaxError` of `JSON.parse`, the `ReferenceError` of a
name that is not in scope, or a `TypeError`. -/
inductive JsError where
  | error (message : String)
  | dataError
  | invalidCharacterError
  | syntaxError
  | referenceError (name : String)
  | typeError
deriving DecidableEq, Repr

section Except

variable {α β : Type}

@[simp] theorem ok_bind (value : α) (f : α → Except JsError β) :
    ((Except.ok value : Except JsError α) >>= f) = f value := rfl

@[simp] theorem error_bind (error : JsError) (f : α → Except JsError β) :
    ((Except.error error : Except JsError α) >>= f) = .error error := rfl

end Except

/-! ### Strings -/

/-- The UTF-16 code units of a character. -/
def charUnits (c : Char) : List Nat :=
  if c.toNat < 0x10000 then [c.toNat]
  else [0xD800 + (c.toNat - 0x10000) / 0x400, 0xDC00 + (c.toNat - 0x10000) % 0x400]

/-- A string as ECMAScript sees it. -/
def utf16 (text : String) : List Nat := text.toList.flatMap charUnits

/-- The code units that `parseInt` skips at the start: white space and line terminators. -/
def isJsSpace (unit : Nat) : Bool :=
  unit ∈ [0x09, 0x0A, 0x0B, 0x0C, 0x0D, 0x20, 0xA0, 0x1680, 0x2028, 0x2029, 0x202F, 0x205F, 0x3000,
    0xFEFF] ∨ (0x2000 ≤ unit ∧ unit ≤ 0x200A)

/-- `text.trim()`. White space has no surrogates. -/
def trim (text : String) : String :=
  let fromStart := text.toList.dropWhile fun c => isJsSpace c.toNat
  .ofList (fromStart.reverse.dropWhile fun c => isJsSpace c.toNat).reverse

/-- The value of a code unit as a digit of radix 16. -/
def digitValue? (unit : Nat) : Option Nat :=
  if 0x30 ≤ unit ∧ unit ≤ 0x39 then some (unit - 0x30)
  else if 0x61 ≤ unit ∧ unit ≤ 0x66 then some (unit - 0x57)
  else if 0x41 ≤ unit ∧ unit ≤ 0x46 then some (unit - 0x37)
  else none

/-- The sign of a number and what follows it. -/
def splitSign : List Nat → Int × List Nat
  | 0x2D :: units => (-1, units)
  | 0x2B :: units => (1, units)
  | units => (1, units)

/-- Drop the optional `0x` prefix. -/
def dropPrefix : List Nat → List Nat
  | 0x30 :: 0x78 :: units => units
  | 0x30 :: 0x58 :: units => units
  | units => units

/-- The digits at the start of a text. -/
def leadingDigits : List Nat → List Nat
  | [] => []
  | unit :: units =>
      match digitValue? unit with
      | some digit => digit :: leadingDigits units
      | none => []

/-- `parseInt(text, 16)`; `none` is `NaN`. What follows the digits is ignored. -/
def parseIntBase16 (units : List Nat) : Option Int :=
  let (sign, units) := splitSign (units.dropWhile isJsSpace)
  match leadingDigits (dropPrefix units) with
  | [] => none
  | digits => some (sign * (digits.foldl (fun acc digit => acc * 16 + digit) 0 : Nat))

/-! ### Bytes -/

/-- What a `Uint8Array` stores for a number: `NaN` is zero, and the rest is taken modulo 256. -/
def toUint8 : Option Int → UInt8
  | none => 0
  | some value => UInt8.ofNat (value % 256).toNat

/-- `v.toString(16).padStart(2, "0")`. -/
def byteToHex (v : UInt8) : List Char := (Nat.toDigits 16 v.toNat).leftpad 2 '0'

/-- Two lowercase digits. -/
theorem byteToHex_eq (v : UInt8) : byteToHex v = [hexDigit (v.toNat / 16), hexDigit (v.toNat % 16)] := by
  have all : ∀ n : Fin 256, (Nat.toDigits 16 n.val).leftpad 2 '0' =
      [hexDigit (n.val / 16), hexDigit (n.val % 16)] := by decide +kernel
  exact all ⟨v.toNat, v.toNat_lt⟩

end Js

end Priestly
