/-
Module: Priestly.Crypto.Sha1
Layer: Crypto
Purpose: The hand-written SHA-1 of `crypto/sha1.py`, on unbounded integers with the masks where the
  source has them.
Imports: Priestly.Lib.Bytes
Trusted boundary: none
Main exports: rotl, sha1, length_sha1
-/
import Priestly.Lib.Bytes

namespace Priestly

open ByteCodec

namespace Sha1

/-- `_MASK32`. -/
def mask32 : Nat := 0xFFFFFFFF

/-- `_rotl`. -/
def rotl (value amount : Nat) : Nat :=
  ((value <<< amount) ||| (value >>> (32 - amount))) &&& mask32

/-- The five chaining values. -/
structure Words where
  a : Nat
  b : Nat
  c : Nat
  d : Nat
  e : Nat
deriving DecidableEq, Repr

/-- `_H0` to `_H4`. -/
def initial : Words := ⟨0x67452301, 0xEFCDAB89, 0x98BADCFE, 0x10325476, 0xC3D2E1F0⟩

/-- Append `0x80`, zeros to 56 modulo 64, and the length in bits as 64 bits. -/
def padMessage (data : Bytes) : Bytes :=
  let bitLen := (data.length * 8) &&& 0xFFFFFFFFFFFFFFFF
  let message := data ++ [0x80]
  message ++ List.replicate ((56 + 64 - message.length % 64) % 64) 0 ++ toBytesBE 8 bitLen

/-- The words `w[0]` to `w[15]` of a block. -/
def blockWords (block : Bytes) : List Nat :=
  (List.range 16).map fun i => ofBytesBE ((block.drop (i * 4)).take 4)

/-- The words from `w[16]` on, each appended to the list built so far. -/
def extendWords : Nat → List Nat → List Nat
  | 0, w => w
  | steps + 1, w =>
      let i := w.length
      extendWords steps
        (w ++ [rotl (w.getD (i - 3) 0 ^^^ w.getD (i - 8) 0 ^^^ w.getD (i - 14) 0 ^^^
          w.getD (i - 16) 0) 1])

/-- The function `f` and the constant `k` of round `i`. -/
def roundFunction (i b c d : Nat) : Nat × Nat :=
  if i < 20 then ((b &&& c) ||| (((b &&& mask32) ^^^ mask32) &&& d), 0x5A827999)
  else if i < 40 then (b ^^^ c ^^^ d, 0x6ED9EBA1)
  else if i < 60 then ((b &&& c) ||| (b &&& d) ||| (c &&& d), 0x8F1BBCDC)
  else (b ^^^ c ^^^ d, 0xCA62C1D6)

/-- Round `i` on the working variables. -/
def round (w : List Nat) (s : Words) (i : Nat) : Words :=
  let (f, k) := roundFunction i s.b s.c s.d
  let temp := (rotl s.a 5 + f + s.e + k + w.getD i 0) &&& mask32
  ⟨temp, s.a, rotl s.b 30, s.c, s.d⟩

/-- Fold one 64-byte block into the chaining values. -/
def processBlock (h : Words) (block : Bytes) : Words :=
  let w := extendWords 64 (blockWords block)
  let s := (List.range 80).foldl (round w) h
  ⟨(h.a + s.a) &&& mask32, (h.b + s.b) &&& mask32, (h.c + s.c) &&& mask32,
    (h.d + s.d) &&& mask32, (h.e + s.e) &&& mask32⟩

/-- The loop over the blocks of the padded message. -/
def processBlocks : Nat → Words → Bytes → Words
  | 0, h, _ => h
  | blocks + 1, h, message =>
      processBlocks blocks (processBlock h (message.take 64)) (message.drop 64)

end Sha1

/-- The 20-byte SHA-1 digest of `data`. -/
def sha1 (data : Bytes) : Bytes :=
  let message := Sha1.padMessage data
  let h := Sha1.processBlocks (message.length / 64) Sha1.initial message
  toBytesBE 4 h.a ++ toBytesBE 4 h.b ++ toBytesBE 4 h.c ++ toBytesBE 4 h.d ++ toBytesBE 4 h.e

@[simp] theorem length_sha1 (data : Bytes) : (sha1 data).length = 20 := by
  simp [sha1]

end Priestly
