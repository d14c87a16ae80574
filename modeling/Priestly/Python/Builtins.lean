/-
Module: Priestly.Python.Builtins
Layer: Python
Purpose: The parts of CPython 3.12 the program leans on: the exception classes, `int(text, 16)`,
  `bytes.fromhex`, `struct.pack(">Q", n)` and `">H"`, `hmac.compare_digest` on strings, and strict UTF-8.
Imports: Priestly.Lib.Bytes
Trusted boundary: human-reviewed spec of the standard library
Main exports: Exn, intBase16, bytesFromHex, structPackQ, structPackH, compareDigest, utf8Encode, utf8Decode
-/
import Priestly.Lib.Bytes

namespace Priestly

open ByteCodec

/-! ### Exceptions -/

/-- The exceptions that occur in the modelled code, with the text `str(exc)` gives. The two classes
named `ProtocolError`, of `transport.ws` and of `cli.chat_client`, are kept apart. -/
inductive Exn where
  | valueError (text : String)
  | unicodeDecodeError (text : String)
  | jsonDecodeError (text : String)
  | validationError (text : String)
  | typeError (text : String)
  | overflowError (text : String)
  | memoryError
  | structError (text : String)
  | indexError (text : String)
  | keyError (text : String)
  | attributeError (text : String)
  | recursionError (text : String)
  | osError (text : String)
  | connectionClosed (text : String)
  | wsProtocolError (text : String)
  | chatProtocolError (text : String)
  | covenantError (text : String)
  | authenticationError (text : String)
  | replayError (text : String)
deriving DecidableEq, Repr

namespace Exn

/-- The text of an exception. -/
def str : Exn → String
  | valueError text | unicodeDecodeError text | jsonDecodeError text | validationError text
  | typeError text | overflowError text | structError text | indexError text | keyError text
  | attributeError text | recursionError text | osError text | connectionClosed text
  | wsProtocolError text | chatProtocolError text | covenantError text
  | authenticationError text | replayError text => text
  | memoryError => ""

/-- `isinstance(exc, ValueError)`. JSON, UTF-8 and pydantic validation errors are subclasses;
`struct.error`, `OverflowError`, `MemoryError`, `TypeError`, `IndexError` and `AttributeError` are not. -/
def isValueError : Exn → Bool
  | valueError _ | unicodeDecodeError _ | jsonDecodeError _ | validationError _ => true
  | _ => false

/-- `isinstance(exc, CovenantError)`. -/
def isCovenantError : Exn → Bool
  | covenantError _ => true
  | _ => false

end Exn

section Except

variable {α β : Type}

@[simp] theorem pure_ok (value : α) : (pure value : Except Exn α) = .ok value := rfl

@[simp] theorem ok_bind (value : α) (f : α → Except Exn β) :
    ((Except.ok value : Except Exn α) >>= f) = f value := rfl

@[simp] theorem error_bind (exn : Exn) (f : α → Except Exn β) :
    ((Except.error exn : Except Exn α) >>= f) = .error exn := rfl

/-- A sequence that succeeds has a first part that succeeds. -/
theorem bind_eq_ok {first : Except Exn α} {f : α → Except Exn β} {result : β}
    (h : (first >>= f) = .ok result) : ∃ value, first = .ok value ∧ f value = .ok result := by
  cases first with
  | error exn => cases h
  | ok value => exact ⟨value, rfl, h⟩

/-- A map whose every step succeeds, succeeds. -/
theorem mapM_ok {f : α → Except Exn β} {g : α → β} {items : List α}
    (h : ∀ item ∈ items, f item = .ok (g item)) : items.mapM f = .ok (items.map g) := by
  induction items with
  | nil => rfl
  | cons item items ih =>
      rw [List.mapM_cons, h item List.mem_cons_self,
        ih fun other hother => h other (List.mem_cons_of_mem _ hother)]
      rfl

end Except

/-! ### Strings -/

/-- `str.isascii`. -/
def isAscii (text : String) : Bool := text.toList.all fun c => c.toNat < 128

/-- The whitespace of the C locale, which is what the number and hex readers skip. -/
def isCSpace (c : Char) : Bool :=
  c = ' ' ∨ (9 ≤ c.toNat ∧ c.toNat ≤ 13)

/-- `str.isspace` on the code points from 127 on. -/
def isUnicodeSpace (c : Char) : Bool :=
  c.toNat ∈ [0x85, 0xa0, 0x1680, 0x2028, 0x2029, 0x202f, 0x205f, 0x3000] ∨
    (0x2000 ≤ c.toNat ∧ c.toNat ≤ 0x200a)

/-- The code points of the digits zero of Unicode 15.0; each starts a run of ten decimal digits. -/
def decimalZeros : List Nat :=
  [0x30, 0x660, 0x6f0, 0x7c0, 0x966, 0x9e6, 0xa66, 0xae6, 0xb66, 0xbe6, 0xc66, 0xce6, 0xd66, 0xde6,
    0xe50, 0xed0, 0xf20, 0x1040, 0x1090, 0x17e0, 0x1810, 0x1946, 0x19d0, 0x1a80, 0x1a90, 0x1b50,
    0x1bb0, 0x1c40, 0x1c50, 0xa620, 0xa8d0, 0xa900, 0xa9d0, 0xa9f0, 0xaa50, 0xabf0, 0xff10,
    0x104a0, 0x10d30, 0x11066, 0x110f0, 0x11136, 0x111d0, 0x112f0, 0x11450, 0x114d0, 0x11650,
    0x116c0, 0x11730, 0x118e0, 0x11950, 0x11c50, 0x11d50, 0x11da0, 0x11f50, 0x16a60, 0x16ac0,
    0x16b50, 0x1d7ce, 0x1d7d8, 0x1d7e2, 0x1d7ec, 0x1d7f6, 0x1e140, 0x1e2f0, 0x1e4f0, 0x1e950,
    0x1fbf0]

/-- The decimal value of a Unicode digit. -/
def unicodeDecimal? (c : Char) : Option Nat :=
  (decimalZeros.find? fun start => start ≤ c.toNat ∧ c.toNat < start + 10).map fun start =>
    c.toNat - start

/-- How `int` turns a non-ASCII character into an ASCII one before it reads digits. A character that
is neither a space nor a digit becomes `?`, which no number contains. -/
def decimalAndSpaceToAscii (c : Char) : Char :=
  if c.toNat < 127 then c
  else if isUnicodeSpace c then ' '
  else match unicodeDecimal? c with
    | some value => Char.ofNat (48 + value)
    | none => '?'

/-- Read hexadecimal digits with single underscores between them. The flag says whether the last
character was an underscore, which may neither repeat nor end the number. -/
def scanHexDigits (acc : Nat) (underscore : Bool) : List Char → Option (Nat × List Char)
  | [] => if underscore then none else some (acc, [])
  | c :: cs =>
      match hexValue? c with
      | some digit => scanHexDigits (acc * 16 + digit) false cs
      | none =>
          if underscore then none
          else if c = '_' then scanHexDigits acc true cs
          else some (acc, c :: cs)

/-- Drop the optional `0x` prefix, and the one underscore allowed behind it. -/
def dropHexPrefix : List Char → List Char
  | '0' :: 'x' :: '_' :: cs => cs
  | '0' :: 'X' :: '_' :: cs => cs
  | '0' :: 'x' :: cs => cs
  | '0' :: 'X' :: cs => cs
  | cs => cs

/-- The sign of a number literal and what follows it. -/
def splitSign : List Char → Int × List Char
  | '+' :: cs => (1, cs)
  | '-' :: cs => (-1, cs)
  | cs => (1, cs)

/-- `int(text, 16)`; `none` is the `ValueError`. Surrounding whitespace, a sign, a prefix, single
underscores and the decimal digits of every script are accepted. -/
def intBase16 (text : String) : Option Int :=
  let chars := if isAscii text then text.toList else text.toList.map decimalAndSpaceToAscii
  let (sign, cs) := splitSign (chars.dropWhile isCSpace)
  match dropHexPrefix cs with
  | [] => none
  | c :: rest =>
      match hexValue? c with
      | none => none
      | some _ =>
          match scanHexDigits 0 false (c :: rest) with
          | some (value, trailing) => if trailing.all isCSpace then some (sign * value) else none
          | none => none

/-- `bytes.fromhex(text)`; `none` is the `ValueError`. Whitespace may stand between byte pairs. -/
def bytesFromHex : List Char → Option Bytes
  | [] => some []
  | [c] => if isCSpace c then some [] else none
  | c :: d :: rest =>
      if isCSpace c then bytesFromHex (d :: rest)
      else match hexValue? c, hexValue? d with
        | some high, some low => (bytesFromHex rest).map (UInt8.ofNat (high * 16 + low) :: ·)
        | _, _ => none

/-! ### struct, hmac.compare_digest, UTF-8 -/

/-- `struct.pack(">Q", n)`. -/
def structPackQ (n : Int) : Except Exn Bytes :=
  if 0 ≤ n ∧ n < 2 ^ 64 then .ok (toBytesBE 8 n.toNat)
  else .error (.structError "int too large to convert")

/-- `struct.pack(">H", n)`. -/
def structPackH (n : Int) : Except Exn Bytes :=
  if 0 ≤ n ∧ n < 2 ^ 16 then .ok (toBytesBE 2 n.toNat)
  else .error (.structError "'H' format requires 0 <= number <= 65535")

/-- What `hmac.compare_digest` says of strings it does not take. -/
def nonAsciiText : String := "comparing strings with non-ASCII characters is not supported"

/-- `hmac.compare_digest(a, b)` on two strings. -/
def compareDigest (a b : String) : Except Exn Bool :=
  if isAscii a ∧ isAscii b then .ok (a = b) else .error (.typeError nonAsciiText)

/-- `text.encode("utf-8")`. -/
def utf8Encode (text : String) : Bytes := text.toUTF8.data.toList

/-- `data.decode("utf-8")`; `none` is the `UnicodeDecodeError`. -/
def utf8Decode (data : Bytes) : Option String := String.fromUTF8? ⟨data.toArray⟩

/-! ### Facts -/

@[simp] theorem utf8Decode_utf8Encode (text : String) :
    utf8Decode (utf8Encode text) = some text := by
  have hbytes : (⟨(utf8Encode text).toArray⟩ : ByteArray) = text.toByteArray := by
    simp [utf8Encode]
  rw [utf8Decode, hbytes, String.fromUTF8?, dif_pos text.isValidUTF8]
  rfl

/-- UTF-8 goes character by character. -/
theorem utf8Encode_eq (text : String) :
    utf8Encode text = text.toList.flatMap String.utf8EncodeChar := by
  have hlist : ∀ chars : List Char,
      utf8Encode (.ofList chars) = chars.flatMap String.utf8EncodeChar := by
    intro chars
    simp [utf8Encode, List.utf8Encode]
  rw [← hlist, String.ofList_toList]

theorem isCSpace_hexDigit {value : Nat} (h : value < 16) : isCSpace (hexDigit value) = false := by
  have all : ∀ v : Fin 16, isCSpace (hexDigit v) = false := by decide
  exact all ⟨value, h⟩

theorem toNat_hexDigit_lt {value : Nat} (h : value < 16) : (hexDigit value).toNat < 128 := by
  have all : ∀ v : Fin 16, (hexDigit v).toNat < 128 := by decide
  exact all ⟨value, h⟩

theorem isAscii_hexString (bytes : Bytes) : isAscii (hexString bytes) = true := by
  rw [isAscii, toList_hexString, List.all_eq_true]
  intro c hc
  obtain ⟨value, hvalue, rfl⟩ := exists_hexDigit_of_mem hc
  simpa using toNat_hexDigit_lt hvalue

/-- `bytes.fromhex(data.hex())` gives the data back. -/
@[simp] theorem bytesFromHex_hexChars (bytes : Bytes) :
    bytesFromHex (hexChars bytes) = some bytes := by
  induction bytes with
  | nil => rfl
  | cons byte bytes ih =>
      have hbyte : byte.toNat < 256 := byte.toNat_lt
      have hhigh : byte.toNat / 16 < 16 := by omega
      have hlow : byte.toNat % 16 < 16 := by omega
      have hsum : byte.toNat / 16 * 16 + byte.toNat % 16 = byte.toNat := by omega
      simp [hexChars, bytesFromHex, isCSpace_hexDigit hhigh, hexValue?_hexDigit hhigh,
        hexValue?_hexDigit hlow, ih, hsum]

/-- Scanning the digits of a hexadecimal spelling consumes them all. -/
private theorem scanHexDigits_hexChars (acc : Nat) (bytes : Bytes) :
    scanHexDigits acc false (hexChars bytes) =
      some (acc * 256 ^ bytes.length + ofBytesBE bytes, []) := by
  induction bytes generalizing acc with
  | nil => simp [hexChars, scanHexDigits]
  | cons byte bytes ih =>
      have hbyte : byte.toNat < 256 := byte.toNat_lt
      have hhigh : byte.toNat / 16 < 16 := by omega
      have hlow : byte.toNat % 16 < 16 := by omega
      have hsum : (acc * 16 + byte.toNat / 16) * 16 + byte.toNat % 16 = acc * 256 + byte.toNat := by
        omega
      simp only [hexChars, scanHexDigits, hexValue?_hexDigit hhigh, hexValue?_hexDigit hlow, hsum, ih]
      rw [ofBytesBE_cons, List.length_cons, Nat.pow_succ']
      congr 2
      ring

private theorem dropHexPrefix_hexChars (bytes : Bytes) :
    dropHexPrefix (hexChars bytes) = hexChars bytes := by
  have noX : ∀ v : Fin 16, hexDigit v ≠ 'x' ∧ hexDigit v ≠ 'X' := by decide
  cases bytes with
  | nil => rfl
  | cons byte bytes =>
      have hlow : byte.toNat % 16 < 16 := by omega
      have := noX ⟨_, hlow⟩
      rw [hexChars]
      unfold dropHexPrefix
      split <;> simp_all

private theorem splitSign_hexChars (bytes : Bytes) :
    splitSign (hexChars bytes) = (1, hexChars bytes) := by
  have noSign : ∀ v : Fin 16, hexDigit v ≠ '+' ∧ hexDigit v ≠ '-' := by decide
  cases bytes with
  | nil => rfl
  | cons byte bytes =>
      have hbyte : byte.toNat < 256 := byte.toNat_lt
      have := noSign ⟨byte.toNat / 16, by omega⟩
      rw [hexChars]
      unfold splitSign
      split <;> simp_all

/-- `int(data.hex(), 16)` is the big-endian value of non-empty data. -/
theorem intBase16_hexString {bytes : Bytes} (h : bytes ≠ []) :
    intBase16 (hexString bytes) = some (ofBytesBE bytes : Int) := by
  have hdrop : (hexChars bytes).dropWhile isCSpace = hexChars bytes := by
    cases bytes with
    | nil => rfl
    | cons byte bytes =>
        have hbyte : byte.toNat < 256 := byte.toNat_lt
        rw [hexChars, List.dropWhile_cons_of_neg]
        simp [isCSpace_hexDigit (show byte.toNat / 16 < 16 by omega)]
  have hscan := scanHexDigits_hexChars 0 bytes
  simp only [intBase16, isAscii_hexString, if_true, toList_hexString, hdrop, splitSign_hexChars,
    dropHexPrefix_hexChars]
  cases bytes with
  | nil => exact absurd rfl h
  | cons byte bytes =>
      have hbyte : byte.toNat < 256 := byte.toNat_lt
      rw [hexChars] at hscan ⊢
      simp [hexValue?_hexDigit (show byte.toNat / 16 < 16 by omega), hscan]

end Priestly
