/-
Module: Priestly.Python.Hashlib
Layer: Python
Purpose: The keyed MAC of the standard library, `hmac.new(key, data, hashlib.sha256).digest()`, written
  out so that it can be evaluated. The protocol modules take the MAC as a parameter; concrete runs
  instantiate the parameter with this function.
Imports: Priestly.Lib.Bytes
Trusted boundary: human-reviewed spec of the standard library
Main exports: sha256, hmacSha256, length_hmacSha256
-/
import Priestly.Lib.Bytes

namespace Priestly

open ByteCodec

namespace Sha256

/-- A 32-bit word. -/
abbrev word (n : Nat) : Nat := n &&& 0xffffffff

def rotr (x amount : Nat) : Nat := word ((x >>> amount) ||| (x <<< (32 - amount)))

/-- The round constants. -/
def constants : List Nat :=
  [0x428a2f98, 0x71374491, 0xb5c0fbcf, 0xe9b5dba5, 0x3956c25b, 0x59f111f1, 0x923f82a4, 0xab1c5ed5,
    0xd807aa98, 0x12835b01, 0x243185be, 0x550c7dc3, 0x72be5d74, 0x80deb1fe, 0x9bdc06a7, 0xc19bf174,
    0xe49b69c1, 0xefbe4786, 0x0fc19dc6, 0x240ca1cc, 0x2de92c6f, 0x4a7484aa, 0x5cb0a9dc, 0x76f988da,
    0x983e5152, 0xa831c66d, 0xb00327c8, 0xbf597fc7, 0xc6e00bf3, 0xd5a79147, 0x06ca6351, 0x14292967,
    0x27b70a85, 0x2e1b2138, 0x4d2c6dfc, 0x53380d13, 0x650a7354, 0x766a0abb, 0x81c2c92e, 0x92722c85,
    0xa2bfe8a1, 0xa81a664b, 0xc24b8b70, 0xc76c51a3, 0xd192e819, 0xd6990624, 0xf40e3585, 0x106aa070,
    0x19a4c116, 0x1e376c08, 0x2748774c, 0x34b0bcb5, 0x391c0cb3, 0x4ed8aa4a, 0x5b9cca4f, 0x682e6ff3,
    0x748f82ee, 0x78a5636f, 0x84c87814, 0x8cc70208, 0x90befffa, 0xa4506ceb, 0xbef9a3f7, 0xc67178f2]

/-- The eight working variables. -/
structure State where
  a : Nat
  b : Nat
  c : Nat
  d : Nat
  e : Nat
  f : Nat
  g : Nat
  h : Nat

def State.initial : State :=
  ⟨0x6a09e667, 0xbb67ae85, 0x3c6ef372, 0xa54ff53a, 0x510e527f, 0x9b05688c, 0x1f83d9ab, 0x5be0cd19⟩

/-- The message schedule, most recent word first. -/
def schedule : Nat → List Nat → List Nat
  | 0, words => words
  | steps + 1, words =>
      let w2 := words.getD 1 0
      let w15 := words.getD 14 0
      let s0 := rotr w15 7 ^^^ rotr w15 18 ^^^ (w15 >>> 3)
      let s1 := rotr w2 17 ^^^ rotr w2 19 ^^^ (w2 >>> 10)
      schedule steps (word (s1 + words.getD 6 0 + s0 + words.getD 15 0) :: words)

/-- One round. -/
def round (s : State) (input : Nat × Nat) : State :=
  let s1 := rotr s.e 6 ^^^ rotr s.e 11 ^^^ rotr s.e 25
  let ch := (s.e &&& s.f) ^^^ (word (s.e ^^^ 0xffffffff) &&& s.g)
  let t1 := s.h + s1 + ch + input.1 + input.2
  let s0 := rotr s.a 2 ^^^ rotr s.a 13 ^^^ rotr s.a 22
  let maj := (s.a &&& s.b) ^^^ (s.a &&& s.c) ^^^ (s.b &&& s.c)
  ⟨word (t1 + s0 + maj), s.a, s.b, s.c, word (s.d + t1), s.e, s.f, s.g⟩

/-- The sixteen words of a block, most recent first. -/
def blockWords : Nat → Bytes → List Nat → List Nat
  | 0, _, acc => acc
  | words + 1, block, acc => blockWords words (block.drop 4) (ofBytesBE (block.take 4) :: acc)

/-- Fold one block into the state. -/
def compress (s : State) (block : Bytes) : State :=
  let words := (schedule 48 (blockWords 16 block [])).reverse
  let t := (constants.zip words).foldl round s
  ⟨word (s.a + t.a), word (s.b + t.b), word (s.c + t.c), word (s.d + t.d), word (s.e + t.e),
    word (s.f + t.f), word (s.g + t.g), word (s.h + t.h)⟩

def compressAll : Nat → State → Bytes → State
  | 0, s, _ => s
  | blocks + 1, s, message => compressAll blocks (compress s (message.take 64)) (message.drop 64)

/-- The message followed by `0x80`, zeros up to 56 modulo 64, and its length in bits. -/
def pad (message : Bytes) : Bytes :=
  message ++ [0x80] ++ List.replicate ((119 - message.length % 64) % 64) 0 ++
    toBytesBE 8 (message.length * 8)

end Sha256

/-- `hashlib.sha256(message).digest()`. -/
def sha256 (message : Bytes) : Bytes :=
  let padded := Sha256.pad message
  let s := Sha256.compressAll (padded.length / 64) .initial padded
  toBytesBE 4 s.a ++ toBytesBE 4 s.b ++ toBytesBE 4 s.c ++ toBytesBE 4 s.d ++ toBytesBE 4 s.e ++
    toBytesBE 4 s.f ++ toBytesBE 4 s.g ++ toBytesBE 4 s.h

/-- `hmac.new(key, data, hashlib.sha256).digest()`. -/
def hmacSha256 (key data : Bytes) : Bytes :=
  let short := if 64 < key.length then sha256 key else key
  let block := short ++ List.replicate (64 - short.length) 0
  sha256 (block.map (· ^^^ 0x5c) ++ sha256 (block.map (· ^^^ 0x36) ++ data))

@[simp] theorem length_sha256 (message : Bytes) : (sha256 message).length = 32 := by
  simp [sha256]

@[simp] theorem length_hmacSha256 (key data : Bytes) : (hmacSha256 key data).length = 32 := by
  simp [hmacSha256]

end Priestly
