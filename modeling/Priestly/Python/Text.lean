/-
Module: Priestly.Python.Text
Layer: Python
Purpose: The methods of `str` the program calls: `strip` and `splitlines`, and on Latin-1 text `lower`,
  `upper` and `repr`; and UTF-8 decoding that replaces what is malformed.
Imports: Priestly.Python.Builtins
Trusted boundary: human-reviewed spec of the standard library
Main exports: strip, splitlines, latin1Decode, lower, upper, reprLatin1, utf8DecodeReplace
-/
import Priestly.Python.Builtins

namespace Priestly

open ByteCodec

/-! ### Spaces and lines -/

/-- `str.isspace` of one character. -/
def isStrSpace (c : Char) : Bool := isCSpace c || (0x1c ≤ c.toNat && c.toNat ≤ 0x1f) || isUnicodeSpace c

/-- `text.strip()`. -/
def strip (text : List Char) : List Char :=
  ((text.dropWhile isStrSpace).reverse.dropWhile isStrSpace).reverse

/-- A character that ends a line for `str.splitlines`; a carriage return with a line feed behind it counts
as one. -/
def isLineBreak (c : Char) : Bool :=
  c.toNat ∈ [0x0A, 0x0B, 0x0C, 0x0D, 0x1C, 0x1D, 0x1E, 0x85, 0x2028, 0x2029]

/-- The lines of a text, where a line feed right at its start may belong to the break before it. -/
def splitlinesFrom (afterReturn : Bool) : List Char → List (List Char)
  | [] => []
  | c :: rest =>
      if afterReturn ∧ c = '\n' then splitlinesFrom false rest
      else if isLineBreak c then [] :: splitlinesFrom (c = '\r') rest
      else
        match splitlinesFrom false rest with
        | [] => [[c]]
        | line :: lines => (c :: line) :: lines

/-- `text.splitlines()`. -/
def splitlines (text : List Char) : List (List Char) := splitlinesFrom false text

/-! ### Latin-1 text -/

/-- `data.decode("iso-8859-1")`. -/
def latin1Decode (data : Bytes) : List Char := data.map fun b => Char.ofNat b.toNat

/-- `str.lower` of a Latin-1 character. -/
def lowerChar (c : Char) : Char :=
  if ('A' ≤ c ∧ c ≤ 'Z') ∨ (0xC0 ≤ c.toNat ∧ c.toNat ≤ 0xDE ∧ c.toNat ≠ 0xD7) then
    Char.ofNat (c.toNat + 32)
  else c

/-- `text.lower()`. -/
def lower (text : List Char) : List Char := text.map lowerChar

/-- `str.upper` of a Latin-1 character. -/
def upperChar (c : Char) : List Char :=
  if ('a' ≤ c ∧ c ≤ 'z') ∨ (0xE0 ≤ c.toNat ∧ c.toNat ≤ 0xFE ∧ c.toNat ≠ 0xF7) then
    [Char.ofNat (c.toNat - 32)]
  else if c.toNat = 0xB5 then [Char.ofNat 0x39C]
  else if c.toNat = 0xDF then ['S', 'S']
  else if c.toNat = 0xFF then [Char.ofNat 0x178]
  else [c]

/-- `text.upper()`. -/
def upper (text : List Char) : List Char := text.flatMap upperChar

/-- The backslash. -/
def backslash : Char := Char.ofNat 92

/-- The two quotes of a string literal. -/
def singleQuote : Char := Char.ofNat 39

def doubleQuote : Char := Char.ofNat 34

/-- How `repr` writes a Latin-1 character between the given quotes. -/
def reprChar (quote c : Char) : List Char :=
  if c = quote ∨ c = backslash then [backslash, c]
  else if c = '\n' then [backslash, 'n']
  else if c = '\r' then [backslash, 'r']
  else if c = '\t' then [backslash, 't']
  else if c.toNat < 0x20 ∨ (0x7F ≤ c.toNat ∧ c.toNat ≤ 0xA0) ∨ c.toNat = 0xAD then
    [backslash, 'x', hexDigit (c.toNat / 16), hexDigit (c.toNat % 16)]
  else [c]

/-- `repr(text)`. -/
def reprLatin1 (text : List Char) : String :=
  let quote := if singleQuote ∈ text ∧ doubleQuote ∉ text then doubleQuote else singleQuote
  .ofList (quote :: text.flatMap (reprChar quote) ++ [quote])

/-! ### Lenient decoding -/

/-- How many bytes at the start of the data can begin a character, if any: the length of the longest
prefix that some well-formed sequence starts with, and the length of that sequence. -/
def utf8Lead : Bytes → Nat × Nat
  | [] => (0, 0)
  | b :: bs =>
      let conts := fun (low high : UInt8) (count : Nat) =>
        match bs with
        | [] => 0
        | c :: cs =>
            if low ≤ c ∧ c ≤ high then
              1 + ((cs.take (count - 1)).takeWhile fun c => 0x80 ≤ c ∧ c ≤ 0xBF).length
            else 0
      if b < 0x80 then (1, 1)
      else if 0xC2 ≤ b ∧ b ≤ 0xDF then (1 + conts 0x80 0xBF 1, 2)
      else if b = 0xE0 then (1 + conts 0xA0 0xBF 2, 3)
      else if b = 0xED then (1 + conts 0x80 0x9F 2, 3)
      else if 0xE1 ≤ b ∧ b ≤ 0xEF then (1 + conts 0x80 0xBF 2, 3)
      else if b = 0xF0 then (1 + conts 0x90 0xBF 3, 4)
      else if 0xF1 ≤ b ∧ b ≤ 0xF3 then (1 + conts 0x80 0xBF 3, 4)
      else if b = 0xF4 then (1 + conts 0x80 0x8F 3, 4)
      else (1, 0)

/-- `data.decode("utf-8", "replace")`: each longest prefix of a character that is not completed becomes
one replacement character, and so does a byte that starts none. -/
def utf8DecodeReplaceFrom : Nat → Bytes → List Char
  | 0, _ => []
  | _ + 1, [] => []
  | rounds + 1, b :: bs =>
      let (found, wanted) := utf8Lead (b :: bs)
      let decoded :=
        if found = wanted then ((utf8Decode ((b :: bs).take found)).map String.toList).getD ['\uFFFD']
        else ['\uFFFD']
      decoded ++ utf8DecodeReplaceFrom rounds ((b :: bs).drop found)

/-- `data.decode("utf-8", "replace")`. -/
def utf8DecodeReplace (data : Bytes) : String := .ofList (utf8DecodeReplaceFrom data.length data)

end Priestly
