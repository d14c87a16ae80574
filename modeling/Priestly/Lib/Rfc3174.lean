/-
Module: Priestly.Lib.Rfc3174
Layer: Lib
Purpose: The secure hash function of RFC 3174 on strings of bits, over words of 32 bits: padding to a
  multiple of 512 bits, the message schedule, the eighty rounds, and the chaining of the blocks.
Imports: none
Trusted boundary: human-reviewed spec of RFC 3174
Main exports: Rfc3174.toBits, Rfc3174.ofBits, Rfc3174.pad, Rfc3174.schedule, Rfc3174.rounds, Rfc3174.chain,
  Rfc3174.digest
-/
import Mathlib.Data.Nat.Bitwise
import Mathlib.Tactic.Ring

namespace Rfc3174

/-! ### Strings of bits -/

/-- A word. -/
abbrev Word := BitVec 32

/-- So many bits of a number, the most significant one first. -/
def toBits (len n : Nat) : List Bool := (List.range len).map fun i => n.testBit (len - 1 - i)

/-- The number that bits spell, the most significant one first. -/
def ofBits (bits : List Bool) : Nat := bits.foldl (fun n bit => 2 * n + bit.toNat) 0

@[simp] theorem length_toBits (len n : Nat) : (toBits len n).length = len := by
  rw [toBits, List.length_map, List.length_range]

/-- High bits and low bits. -/
theorem toBits_add (high low n : Nat) : toBits (high + low) n = toBits high (n / 2 ^ low) ++ toBits low n := by
  rw [toBits, List.range_add, List.map_append, List.map_map]
  congr 1
  · apply List.map_congr_left
    intro i hi
    have hlt := List.mem_range.mp hi
    rw [Nat.testBit_div_two_pow]
    congr 1
    omega
  · apply List.map_congr_left
    intro i hi
    rw [Function.comp_apply]
    congr 1
    omega

/-- Bits at the end of others. -/
theorem ofBits_append_toBits (bits : List Bool) (len n : Nat) :
    ofBits (bits ++ toBits len n) = ofBits bits * 2 ^ len + n % 2 ^ len := by
  induction len generalizing n with
  | zero => simp [toBits, Nat.mod_one]
  | succ len ih =>
      have hlast : toBits 1 n = [n.testBit 0] := rfl
      have hbit : (n.testBit 0).toNat = n % 2 := by
        rw [Nat.testBit_zero]
        rcases Nat.mod_two_eq_zero_or_one n with h | h <;> simp [h]
      rw [toBits_add, hlast, ← List.append_assoc, ofBits, List.foldl_append, ← ofBits, ih, Nat.pow_one,
        List.foldl_cons, List.foldl_nil, hbit, Nat.pow_succ, Nat.mul_comm (2 ^ len) 2, Nat.mod_mul]
      ring

/-! ### Padding -/

/-- The number of zero bits in the padding: the fewest with which, behind the one bit, 64 bits are left in the
last block. -/
def zeros (length : Nat) : Nat := (512 + 447 - length % 512) % 512

/-- A one bit, zeros, and the length of the message. -/
def pad (message : List Bool) : List Bool :=
  message ++ true :: (List.replicate (zeros message.length) false ++ toBits 64 message.length)

/-- The words of a block. -/
def block (padded : List Bool) (i t : Nat) : Word :=
  BitVec.ofNat 32 (ofBits ((padded.drop (512 * i + 32 * t)).take 32))

/-! ### The functions and constants of the rounds -/

/-- The function of round `t`. -/
def f (t : Nat) (b c d : Word) : Word :=
  if t ≤ 19 then (b &&& c) ||| (~~~b &&& d)
  else if t ≤ 39 then b ^^^ c ^^^ d
  else if t ≤ 59 then (b &&& c) ||| (b &&& d) ||| (c &&& d)
  else b ^^^ c ^^^ d

/-- The constant of round `t`. -/
def k (t : Nat) : Word :=
  if t ≤ 19 then 0x5A827999
  else if t ≤ 39 then 0x6ED9EBA1
  else if t ≤ 59 then 0x8F1BBCDC
  else 0xCA62C1D6

/-! ### The digest -/

/-- The message schedule of a block. -/
def schedule (m : Nat → Word) (t : Nat) : Word :=
  if t < 16 then m t
  else (schedule m (t - 3) ^^^ schedule m (t - 8) ^^^ schedule m (t - 14) ^^^ schedule m (t - 16)).rotateLeft 1

/-- Five words. -/
structure State where
  a : Word
  b : Word
  c : Word
  d : Word
  e : Word
deriving DecidableEq, Repr

/-- The words that the first block starts with. -/
def initial : State := ⟨0x67452301, 0xEFCDAB89, 0x98BADCFE, 0x10325476, 0xC3D2E1F0⟩

/-- Round `t`. -/
def round (w : Nat → Word) (t : Nat) (s : State) : State where
  a := s.a.rotateLeft 5 + f t s.b s.c s.d + s.e + w t + k t
  b := s.a
  c := s.b.rotateLeft 30
  d := s.c
  e := s.d

/-- The first rounds. -/
def rounds (w : Nat → Word) (s : State) : Nat → State
  | 0 => s
  | t + 1 => round w t (rounds w s t)

/-- One block. -/
def compress (h : State) (m : Nat → Word) : State :=
  let s := rounds (schedule m) h 80
  ⟨h.a + s.a, h.b + s.b, h.c + s.c, h.d + s.d, h.e + s.e⟩

/-- The first blocks. -/
def chain (padded : List Bool) : Nat → State
  | 0 => initial
  | i + 1 => compress (chain padded i) (block padded i)

/-- The words behind all blocks of a message. -/
def hash (message : List Bool) : State := chain (pad message) ((pad message).length / 512)

/-- The digest of a message. -/
def digest (message : List Bool) : List Bool :=
  let h := hash message
  toBits 32 h.a.toNat ++ toBits 32 h.b.toNat ++ toBits 32 h.c.toNat ++ toBits 32 h.d.toNat ++
    toBits 32 h.e.toNat

end Rfc3174
