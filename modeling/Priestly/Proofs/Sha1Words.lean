/-
Module: Priestly.Proofs.Sha1Words
Layer: Proofs
Purpose: The SHA-1 of `crypto/sha1.py` computes the function of RFC 3174. Its unbounded integers with their
  masks are the 32-bit words of the standard at every step, and its padding on bytes is the padding on bits.
Imports: Priestly.Crypto.Sha1, Priestly.Lib.Rfc3174
Trusted boundary: none
Main exports: bitsOf, Sha1.wordsOf, Sha1.processBlock_wordsOf, bitsOf_padMessage, sha1_rfc3174
-/
import Priestly.Crypto.Sha1
import Priestly.Lib.Rfc3174

namespace Priestly

open ByteCodec

namespace Sha1

open Rfc3174 (Word)

/-! ### Words and integers -/

theorem and_mask32 (n : Nat) : n &&& mask32 = n % 2 ^ 32 := Nat.and_two_pow_sub_one_eq_mod n 32

/-- The rotation of a word. -/
theorem rotl_toNat (x : Word) {amount : Nat} (h : amount < 32) :
    rotl x.toNat amount = (x.rotateLeft amount).toNat := by
  have hright : x.toNat >>> (32 - amount) < 2 ^ 32 :=
    Nat.lt_of_le_of_lt (Nat.shiftRight_le _ _) x.isLt
  rw [rotl, and_mask32, BitVec.toNat_rotateLeft, Nat.mod_eq_of_lt h, Nat.or_mod_two_pow,
    Nat.mod_eq_of_lt hright]

/-- The complement of a word. -/
theorem not_toNat (x : Word) : (x.toNat &&& mask32) ^^^ mask32 = (~~~x).toNat := by
  have hmask : mask32 = (BitVec.allOnes 32).toNat := rfl
  rw [and_mask32, Nat.mod_eq_of_lt x.isLt, hmask, ← BitVec.toNat_xor, BitVec.xor_allOnes]

/-- The function and the constant of a round. -/
theorem roundFunction_toNat (i : Nat) (b c d : Word) :
    roundFunction i b.toNat c.toNat d.toNat = ((Rfc3174.f i b c d).toNat, (Rfc3174.k i).toNat) := by
  rw [roundFunction, Rfc3174.f, Rfc3174.k]
  by_cases hfirst : i < 20
  · have hle : i ≤ 19 := by omega
    rw [if_pos hfirst, if_pos hle, if_pos hle, not_toNat, BitVec.toNat_or, BitVec.toNat_and, BitVec.toNat_and]
    rfl
  · have hle : ¬ i ≤ 19 := by omega
    rw [if_neg hfirst, if_neg hle, if_neg hle]
    by_cases hsecond : i < 40
    · have hle : i ≤ 39 := by omega
      rw [if_pos hsecond, if_pos hle, if_pos hle, BitVec.toNat_xor, BitVec.toNat_xor]
      rfl
    · have hle : ¬ i ≤ 39 := by omega
      rw [if_neg hsecond, if_neg hle, if_neg hle]
      by_cases hthird : i < 60
      · have hle : i ≤ 59 := by omega
        rw [if_pos hthird, if_pos hle, if_pos hle, BitVec.toNat_or, BitVec.toNat_or, BitVec.toNat_and,
          BitVec.toNat_and, BitVec.toNat_and]
        rfl
      · have hle : ¬ i ≤ 59 := by omega
        rw [if_neg hthird, if_neg hle, if_neg hle, BitVec.toNat_xor, BitVec.toNat_xor]
        rfl

/-- A masked sum is the sum of the words. -/
theorem add_toNat (x y : Word) : (x.toNat + y.toNat) &&& mask32 = (x + y).toNat := by
  rw [and_mask32, BitVec.toNat_add]

/-! ### Rounds -/

/-- Five words as integers. -/
def wordsOf (s : Rfc3174.State) : Words := ⟨s.a.toNat, s.b.toNat, s.c.toNat, s.d.toNat, s.e.toNat⟩

/-- Integers of 32 bits. -/
structure Bounded (s : Words) : Prop where
  a : s.a < 2 ^ 32
  b : s.b < 2 ^ 32
  c : s.c < 2 ^ 32
  d : s.d < 2 ^ 32
  e : s.e < 2 ^ 32

theorem bounded_wordsOf (s : Rfc3174.State) : Bounded (wordsOf s) :=
  ⟨s.a.isLt, s.b.isLt, s.c.isLt, s.d.isLt, s.e.isLt⟩

/-- The first entries of a list are the words of a message schedule. -/
def Holds (w : List Nat) (words : Nat → Word) : Prop := ∀ i < w.length, w.getD i 0 = (words i).toNat

/-- A round. -/
theorem round_wordsOf {w : List Nat} {words : Nat → Word} {i : Nat} (hw : w.getD i 0 = (words i).toNat)
    (s : Rfc3174.State) : round w (wordsOf s) i = wordsOf (Rfc3174.round words i s) := by
  have htemp : (rotl s.a.toNat 5 + (Rfc3174.f i s.b s.c s.d).toNat + s.e.toNat + (Rfc3174.k i).toNat +
      (words i).toNat) &&& mask32 =
      (s.a.rotateLeft 5 + Rfc3174.f i s.b s.c s.d + s.e + words i + Rfc3174.k i).toNat := by
    rw [and_mask32, rotl_toNat s.a (by decide)]
    simp only [BitVec.toNat_add]
    omega
  rw [round, wordsOf]
  simp only [roundFunction_toNat, hw, htemp, rotl_toNat s.b (show 30 < 32 by decide)]
  rfl

/-- The first rounds. -/
theorem rounds_wordsOf {w : List Nat} {words : Nat → Word} (hw : Holds w words) (s : Rfc3174.State) {n : Nat}
    (hn : n ≤ w.length) :
    (List.range n).foldl (round w) (wordsOf s) = wordsOf (Rfc3174.rounds words s n) := by
  induction n with
  | zero => rfl
  | succ n ih =>
      rw [List.range_succ, List.foldl_append, ih (by omega)]
      exact round_wordsOf (hw n (by omega)) _

/-! ### The message schedule -/

/-- Every entry that is appended is a word of the schedule. -/
theorem extendWords_holds {m : Nat → Word} (steps : Nat) {w : List Nat} (hfull : 16 ≤ w.length)
    (hw : Holds w (Rfc3174.schedule m)) :
    (extendWords steps w).length = w.length + steps ∧ Holds (extendWords steps w) (Rfc3174.schedule m) := by
  induction steps generalizing w with
  | zero => exact ⟨rfl, hw⟩
  | succ steps ih =>
      have hnext : rotl (w.getD (w.length - 3) 0 ^^^ w.getD (w.length - 8) 0 ^^^ w.getD (w.length - 14) 0 ^^^
          w.getD (w.length - 16) 0) 1 = (Rfc3174.schedule m w.length).toNat := by
        rw [hw _ (by omega), hw _ (by omega), hw _ (by omega), hw _ (by omega), ← BitVec.toNat_xor,
          ← BitVec.toNat_xor, ← BitVec.toNat_xor, rotl_toNat _ (by decide)]
        conv => rhs; rw [Rfc3174.schedule, if_neg (by omega)]
      have hextended : Holds (w ++ [(Rfc3174.schedule m w.length).toNat]) (Rfc3174.schedule m) := by
        intro i hi
        rw [List.length_append, List.length_singleton] at hi
        by_cases hold : i < w.length
        · rw [List.getD_append _ _ _ _ hold]
          exact hw i hold
        · have hlast : i = w.length := by omega
          rw [hlast, List.getD_append_right _ _ _ _ (le_refl _), Nat.sub_self]
          rfl
      rw [extendWords]
      simp only [hnext]
      obtain ⟨hlength, hholds⟩ := ih (by rw [List.length_append]; omega) hextended
      refine ⟨?_, hholds⟩
      rw [hlength, List.length_append, List.length_singleton]
      omega

end Sha1

/-! ### Bytes and bits -/

/-- The bits of bytes, the most significant one of each byte first. -/
def bitsOf (bytes : Bytes) : List Bool := bytes.flatMap fun b => Rfc3174.toBits 8 b.toNat

theorem bitsOf_append (first second : Bytes) : bitsOf (first ++ second) = bitsOf first ++ bitsOf second :=
  List.flatMap_append

theorem bitsOf_singleton (b : UInt8) : bitsOf [b] = Rfc3174.toBits 8 b.toNat := List.flatMap_singleton ..

@[simp] theorem length_bitsOf (bytes : Bytes) : (bitsOf bytes).length = 8 * bytes.length := by
  induction bytes with
  | nil => rfl
  | cons b bytes ih =>
      rw [bitsOf, List.flatMap_cons, List.length_append, ← bitsOf, ih, Rfc3174.length_toBits, List.length_cons]
      omega

theorem drop_bitsOf (bytes : Bytes) (n : Nat) : (bitsOf bytes).drop (8 * n) = bitsOf (bytes.drop n) := by
  by_cases hn : n ≤ bytes.length
  · have hlength : (bitsOf (bytes.take n)).length = 8 * n := by
      rw [length_bitsOf, List.length_take_of_le hn]
    conv => lhs; rw [← List.take_append_drop n bytes, bitsOf_append, List.drop_left' hlength]
  · rw [List.drop_of_length_le (by rw [length_bitsOf]; omega), List.drop_of_length_le (by omega)]
    rfl

theorem take_bitsOf (bytes : Bytes) (n : Nat) : (bitsOf bytes).take (8 * n) = bitsOf (bytes.take n) := by
  by_cases hn : n ≤ bytes.length
  · have hlength : (bitsOf (bytes.take n)).length = 8 * n := by
      rw [length_bitsOf, List.length_take_of_le hn]
    conv => lhs; rw [← List.take_append_drop n bytes, bitsOf_append, List.take_left' hlength]
  · rw [List.take_of_length_le (by rw [length_bitsOf]; omega), List.take_of_length_le (by omega)]

/-- Bits spell the same number as the bytes. -/
theorem ofBits_bitsOf (bytes : Bytes) : Rfc3174.ofBits (bitsOf bytes) = ofBytesBE bytes := by
  induction bytes using List.reverseRecOn with
  | nil => rfl
  | append_singleton bytes last ih =>
      rw [bitsOf_append, bitsOf_singleton, Rfc3174.ofBits_append_toBits, ih, ofBytesBE_concat,
        Nat.mod_eq_of_lt last.toNat_lt]
      rfl

/-- The bits of a number in bytes. -/
theorem bitsOf_toBytesBE (len n : Nat) : bitsOf (toBytesBE len n) = Rfc3174.toBits (8 * len) n := by
  induction len generalizing n with
  | zero => rfl
  | succ len ih =>
      have hlow : Rfc3174.toBits 8 (UInt8.ofNat n).toNat = Rfc3174.toBits 8 n := by
        apply List.map_congr_left
        intro i hi
        have hlt := List.mem_range.mp hi
        have hbyte : (UInt8.ofNat n).toNat = n % 2 ^ 8 := UInt8.toNat_ofNat'
        rw [hbyte, Nat.testBit_mod_two_pow, decide_eq_true (by omega), Bool.true_and]
      rw [toBytesBE, bitsOf_append, ih, bitsOf_singleton, hlow, Nat.mul_succ, Rfc3174.toBits_add]
      rfl

theorem bitsOf_zeros (n : Nat) : bitsOf (List.replicate n 0) = List.replicate (8 * n) false := by
  induction n with
  | zero => rfl
  | succ n ih =>
      have hzero : Rfc3174.toBits 8 (0 : UInt8).toNat = List.replicate 8 false := by decide
      rw [List.replicate_succ, bitsOf, List.flatMap_cons, ← bitsOf, ih, hzero, List.replicate_append_replicate]
      congr 1
      omega

/-! ### Padding -/

/-- The padding on bytes is the padding on bits. -/
theorem bitsOf_padMessage (data : Bytes) : bitsOf (Sha1.padMessage data) = Rfc3174.pad (bitsOf data) := by
  have hone : bitsOf [0x80] = true :: List.replicate 7 false := by decide
  have hzeros : Rfc3174.zeros (8 * data.length) = 7 + 8 * ((56 + 64 - (data.length + 1) % 64) % 64) := by
    rw [Rfc3174.zeros]
    omega
  have hlength : Rfc3174.toBits 64 (data.length * 8 &&& 0xFFFFFFFFFFFFFFFF) =
      Rfc3174.toBits 64 (8 * data.length) := by
    have hmask : data.length * 8 &&& 0xFFFFFFFFFFFFFFFF = data.length * 8 % 2 ^ 64 :=
      Nat.and_two_pow_sub_one_eq_mod _ 64
    rw [hmask, Nat.mul_comm]
    apply List.map_congr_left
    intro i hi
    have hlt := List.mem_range.mp hi
    rw [Nat.testBit_mod_two_pow, decide_eq_true (by omega), Bool.true_and]
  rw [Sha1.padMessage, Rfc3174.pad, length_bitsOf, hzeros, ← List.replicate_append_replicate]
  simp only [bitsOf_append, hone, bitsOf_zeros, bitsOf_toBytesBE, List.length_append, List.length_singleton]
  rw [hlength]
  simp only [List.append_assoc, List.cons_append]

namespace Sha1

open Rfc3174 (Word)

/-! ### Blocks -/

/-- The block of a message with the given index. -/
def blockAt (message : Bytes) (i : Nat) : Bytes := (message.drop (64 * i)).take 64

/-- The words of a block are those that its bits spell. -/
theorem blockWords_holds (message : Bytes) (i : Nat) :
    (blockWords (blockAt message i)).length = 16 ∧
      Holds (blockWords (blockAt message i)) (Rfc3174.schedule (Rfc3174.block (bitsOf message) i)) := by
  have hlength : (blockWords (blockAt message i)).length = 16 := by
    rw [blockWords, List.length_map, List.length_range]
  refine ⟨hlength, ?_⟩
  intro t ht
  rw [hlength] at ht
  have hbytes : ((blockAt message i).drop (t * 4)).take 4 = (message.drop (64 * i + 4 * t)).take 4 := by
    rw [blockAt, List.drop_take, List.take_take, List.drop_drop]
    congr 1
    · omega
    · congr 1
      omega
  have hbits : ((bitsOf message).drop (512 * i + 32 * t)).take 32 =
      bitsOf ((message.drop (64 * i + 4 * t)).take 4) := by
    rw [← take_bitsOf, ← drop_bitsOf]
    congr 2
    omega
  have hbound : ofBytesBE ((message.drop (64 * i + 4 * t)).take 4) < 2 ^ 32 := by
    have hlt := ofBytesBE_lt ((message.drop (64 * i + 4 * t)).take 4)
    have hle := List.length_take_le 4 (message.drop (64 * i + 4 * t))
    exact lt_of_lt_of_le hlt (le_trans (Nat.pow_le_pow_right (by decide) hle) (by decide))
  have hentry : (blockWords (blockAt message i)).getD t 0 =
      ofBytesBE (((blockAt message i).drop (t * 4)).take 4) := by
    rw [blockWords, List.getD_eq_getElem?_getD, List.getElem?_map, List.getElem?_range ht]
    rfl
  rw [hentry, hbytes, Rfc3174.schedule, if_pos ht, Rfc3174.block, hbits, ofBits_bitsOf, BitVec.toNat_ofNat,
    Nat.mod_eq_of_lt hbound]

/-- The entries `w[0]` to `w[79]` for a block. -/
def scheduleAt (message : Bytes) (i : Nat) : List Nat := extendWords 64 (blockWords (blockAt message i))

/-- They are the message schedule. -/
theorem scheduleAt_holds (message : Bytes) (i : Nat) :
    (scheduleAt message i).length = 80 ∧
      Holds (scheduleAt message i) (Rfc3174.schedule (Rfc3174.block (bitsOf message) i)) := by
  obtain ⟨hlength, hholds⟩ := blockWords_holds message i
  obtain ⟨hextended, hall⟩ := extendWords_holds 64 (by rw [hlength]) hholds
  rw [hlength] at hextended
  exact ⟨hextended, hall⟩

/-- A block. -/
theorem processBlock_wordsOf (message : Bytes) (i : Nat) (h : Rfc3174.State) :
    processBlock (wordsOf h) (blockAt message i) =
      wordsOf (Rfc3174.compress h (Rfc3174.block (bitsOf message) i)) := by
  obtain ⟨hlength, hholds⟩ := scheduleAt_holds message i
  have hrounds := rounds_wordsOf hholds h (Nat.le_of_eq hlength.symm)
  rw [scheduleAt] at hrounds
  rw [processBlock]
  simp only [hrounds]
  simp only [wordsOf, add_toNat, Rfc3174.compress]

/-- The chaining values behind the first blocks. -/
theorem processBlocks_wordsOf (message : Bytes) (blocks i : Nat) :
    processBlocks blocks (wordsOf (Rfc3174.chain (bitsOf message) i)) (message.drop (64 * i)) =
      wordsOf (Rfc3174.chain (bitsOf message) (i + blocks)) := by
  induction blocks generalizing i with
  | zero => rfl
  | succ blocks ih =>
      have hblock := processBlock_wordsOf message i (Rfc3174.chain (bitsOf message) i)
      rw [blockAt] at hblock
      rw [processBlocks, hblock, List.drop_drop, ← Rfc3174.chain, ← Nat.mul_succ, ih]
      congr 2
      omega

/-! ### Intermediate values -/

/-- The values `h0` to `h4` behind the first blocks of a message. -/
def chainingAt (message : Bytes) (i : Nat) : Words := processBlocks i initial message

theorem chainingAt_wordsOf (message : Bytes) (i : Nat) :
    chainingAt message i = wordsOf (Rfc3174.chain (bitsOf message) i) := by
  have hblocks := processBlocks_wordsOf message i 0
  rw [Nat.zero_add] at hblocks
  exact hblocks

/-- The values `a` to `e` behind the first rounds on a block. -/
def workingAt (message : Bytes) (i t : Nat) : Words :=
  (List.range t).foldl (round (scheduleAt message i)) (chainingAt message i)

theorem workingAt_wordsOf (message : Bytes) (i : Nat) {t : Nat} (ht : t ≤ 80) :
    workingAt message i t = wordsOf (Rfc3174.rounds
      (Rfc3174.schedule (Rfc3174.block (bitsOf message) i)) (Rfc3174.chain (bitsOf message) i) t) := by
  obtain ⟨hlength, hholds⟩ := scheduleAt_holds message i
  rw [workingAt, chainingAt_wordsOf]
  exact rounds_wordsOf hholds _ (ht.trans (Nat.le_of_eq hlength.symm))

/-- The entries of a schedule are words. -/
theorem scheduleAt_lt (message : Bytes) (i : Nat) : ∀ word ∈ scheduleAt message i, word < 2 ^ 32 := by
  obtain ⟨_, hholds⟩ := scheduleAt_holds message i
  intro word hword
  obtain ⟨t, ht, rfl⟩ := List.mem_iff_getElem.mp hword
  have hentry := hholds t ht
  rw [List.getD_eq_getElem _ _ ht] at hentry
  rw [hentry]
  exact BitVec.isLt _

/-- No value that is computed on the way exceeds 32 bits. -/
structure StaysBounded (message : Bytes) : Prop where
  chaining : ∀ i, Bounded (chainingAt message i)
  schedule : ∀ i, ∀ word ∈ scheduleAt message i, word < 2 ^ 32
  working : ∀ i t, t ≤ 80 → Bounded (workingAt message i t)

theorem staysBounded (message : Bytes) : StaysBounded message where
  chaining i := by
    rw [chainingAt_wordsOf]
    exact bounded_wordsOf _
  schedule := scheduleAt_lt message
  working i t ht := by
    rw [workingAt_wordsOf message i ht]
    exact bounded_wordsOf _

end Sha1

/-- `sha1` computes the function of RFC 3174: the bits of its result are the digest of the bits of the data;
and all values of `h0` to `h4`, of `w` and of `a` to `e` behind every block and every round are words of 32
bits. From 2^61 bytes on, where the standard defines no length field, both keep its last 64 bits. -/
theorem sha1_rfc3174 (data : Bytes) :
    bitsOf (sha1 data) = Rfc3174.digest (bitsOf data) ∧ Sha1.StaysBounded (Sha1.padMessage data) := by
  refine ⟨?_, Sha1.staysBounded _⟩
  have hpad := bitsOf_padMessage data
  have hlength : (Rfc3174.pad (bitsOf data)).length / 512 = (Sha1.padMessage data).length / 64 := by
    rw [← hpad, length_bitsOf]
    omega
  have hchain := Sha1.chainingAt_wordsOf (Sha1.padMessage data) ((Sha1.padMessage data).length / 64)
  rw [Sha1.chainingAt, hpad] at hchain
  rw [sha1, Rfc3174.digest, Rfc3174.hash, hlength]
  simp only [hchain, Sha1.wordsOf, bitsOf_append, bitsOf_toBytesBE]

end Priestly
