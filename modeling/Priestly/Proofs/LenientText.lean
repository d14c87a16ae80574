/-
Module: Priestly.Proofs.LenientText
Layer: Proofs
Purpose: UTF-8 decoding that replaces what is malformed gives every well-formed text back.
Imports: Priestly.Python.Text
Trusted boundary: none
Main exports: utf8Lead_utf8EncodeChar, utf8DecodeReplace_utf8Encode
-/
import Priestly.Python.Text

namespace Priestly

open ByteCodec

section Lead

variable {a b c d : UInt8} {rest : Bytes}

/-- Two bytes that are a character. -/
theorem utf8Lead_two (ha : 0xC2 ≤ a ∧ a ≤ 0xDF) (hb : 0x80 ≤ b ∧ b ≤ 0xBF) :
    utf8Lead (a :: b :: rest) = (2, 2) := by
  have hascii : ¬ a < 0x80 := by
    rw [UInt8.lt_iff_toNat_lt]
    have := UInt8.le_iff_toNat_le.mp ha.1
    simp only [UInt8.reduceToNat] at this ⊢
    omega
  simp only [utf8Lead, if_neg hascii, if_pos ha, if_pos hb, Nat.sub_self, List.take_zero, List.takeWhile_nil,
    List.length_nil, Nat.add_zero]

/-- Three bytes that are a character. -/
theorem utf8Lead_three (ha : 0xE0 ≤ a ∧ a ≤ 0xEF) (hb : 0x80 ≤ b ∧ b ≤ 0xBF) (hc : 0x80 ≤ c ∧ c ≤ 0xBF)
    (hlow : a = 0xE0 → 0xA0 ≤ b) (hhigh : a = 0xED → b ≤ 0x9F) :
    utf8Lead (a :: b :: c :: rest) = (3, 3) := by
  have hascii : ¬ a < 0x80 := fun h => absurd (UInt8.lt_of_lt_of_le h (by decide)) (UInt8.not_lt.mpr ha.1)
  have htwo : ¬ (0xC2 ≤ a ∧ a ≤ 0xDF) := fun h =>
    absurd (UInt8.lt_of_le_of_lt h.2 (by decide)) (UInt8.not_lt.mpr ha.1)
  rw [utf8Lead]
  simp only [if_neg hascii, if_neg htwo]
  by_cases hE0 : a = 0xE0
  · have hrange : 0xA0 ≤ b ∧ b ≤ 0xBF := ⟨hlow hE0, hb.2⟩
    simp [hE0, hrange, hc]
  · by_cases hED : a = 0xED
    · have hrange : 0x80 ≤ b ∧ b ≤ 0x9F := ⟨hb.1, hhigh hED⟩
      simp [hED, hrange, hc]
    · have hE1 : 0xE1 ≤ a ∧ a ≤ 0xEF := by
        refine ⟨?_, ha.2⟩
        rw [← UInt8.toNat_inj] at hE0
        simp only [UInt8.le_iff_toNat_le, UInt8.reduceToNat] at ha hE0 ⊢
        omega
      simp [hE0, hED, hE1, hb, hc]

/-- Four bytes that are a character. -/
theorem utf8Lead_four (ha : 0xF0 ≤ a ∧ a ≤ 0xF4) (hb : 0x80 ≤ b ∧ b ≤ 0xBF) (hc : 0x80 ≤ c ∧ c ≤ 0xBF)
    (hd : 0x80 ≤ d ∧ d ≤ 0xBF) (hlow : a = 0xF0 → 0x90 ≤ b) (hhigh : a = 0xF4 → b ≤ 0x8F) :
    utf8Lead (a :: b :: c :: d :: rest) = (4, 4) := by
  have hascii : ¬ a < 0x80 := fun h => absurd (UInt8.lt_of_lt_of_le h (by decide)) (UInt8.not_lt.mpr ha.1)
  have htwo : ¬ (0xC2 ≤ a ∧ a ≤ 0xDF) := fun h =>
    absurd (UInt8.lt_of_le_of_lt h.2 (by decide)) (UInt8.not_lt.mpr ha.1)
  have hthree : ¬ a ≤ 0xEF := fun h =>
    absurd (UInt8.lt_of_le_of_lt h (by decide)) (UInt8.not_lt.mpr ha.1)
  have hE0 : a ≠ 0xE0 := fun h => hthree (h ▸ by decide)
  have hED : a ≠ 0xED := fun h => hthree (h ▸ by decide)
  rw [utf8Lead]
  simp only [if_neg hascii, if_neg htwo, if_neg hE0, if_neg hED, hthree, and_false, if_false]
  by_cases hF0 : a = 0xF0
  · have hrange : 0x90 ≤ b ∧ b ≤ 0xBF := ⟨hlow hF0, hb.2⟩
    simp [hF0, hrange, hc, hd]
  · by_cases hF4 : a = 0xF4
    · have hrange : 0x80 ≤ b ∧ b ≤ 0x8F := ⟨hb.1, hhigh hF4⟩
      simp [hF4, hrange, hc, hd]
    · have hF1 : 0xF1 ≤ a ∧ a ≤ 0xF3 := by
        rw [← UInt8.toNat_inj] at hF0 hF4
        simp only [UInt8.le_iff_toNat_le, UInt8.reduceToNat] at ha hF0 hF4 ⊢
        omega
      simp [hF0, hF1, hb, hc, hd]

end Lead

/-- A byte with a known number between two others. -/
theorem ofNat_between (low high : Nat) {n : Nat} (hlow : low ≤ n) (hhigh : n ≤ high) (hbyte : high < 256) :
    UInt8.ofNat low ≤ UInt8.ofNat n ∧ UInt8.ofNat n ≤ UInt8.ofNat high := by
  simp only [UInt8.le_iff_toNat_le, UInt8.toNat_ofNat']
  omega

theorem toNat_of_ofNat_eq {n : Nat} {b : UInt8} (hn : n < 256) (h : UInt8.ofNat n = b) : n = b.toNat := by
  rw [← h, UInt8.toNat_ofNat']
  omega

/-- Six bits behind the mark of a continuation byte. -/
theorem tail_range (n : Nat) : 0x80 ≤ UInt8.ofNat (n % 0x40 + 0x80) ∧ UInt8.ofNat (n % 0x40 + 0x80) ≤ 0xBF :=
  ofNat_between 0x80 0xBF (by omega) (by omega) (by decide)

/-- The bytes of a character begin one and complete it, whatever follows. -/
theorem utf8Lead_utf8EncodeChar (c : Char) (rest : Bytes) :
    utf8Lead (String.utf8EncodeChar c ++ rest) =
      ((String.utf8EncodeChar c).length, (String.utf8EncodeChar c).length) := by
  have hv : c.val.toNat < 0xD800 ∨ (0xDFFF < c.val.toNat ∧ c.val.toNat < 0x110000) := c.valid
  rw [String.utf8EncodeChar]
  generalize c.val.toNat = v at hv
  -- The cases are those of the encoder: one to four bytes.
  by_cases hone : v ≤ 0x7f
  · simp only [if_pos hone, List.cons_append, List.nil_append, List.length_cons, List.length_nil]
    have hbyte : UInt8.ofNat v < 0x80 := by
      have hrange : 0 ≤ UInt8.ofNat v ∧ UInt8.ofNat v ≤ 0x7F :=
        ofNat_between 0 0x7F (Nat.zero_le v) hone (by decide)
      exact UInt8.lt_of_le_of_lt hrange.2 (by decide)
    rw [utf8Lead]
    simp only [if_pos hbyte]
  · by_cases htwo : v ≤ 0x7ff
    · simp only [if_neg hone, if_pos htwo, List.cons_append, List.nil_append, List.length_cons,
        List.length_nil]
      apply utf8Lead_two
      · exact ofNat_between 0xC2 0xDF (by omega) (by omega) (by decide)
      · exact tail_range v
    · by_cases hthree : v ≤ 0xffff
      · simp only [if_neg hone, if_neg htwo, if_pos hthree, List.cons_append, List.nil_append,
          List.length_cons, List.length_nil]
        apply utf8Lead_three
        · exact ofNat_between 0xE0 0xEF (by omega) (by omega) (by decide)
        · exact tail_range (v / 64)
        · exact tail_range v
        -- A first byte at either end of its range leaves less to the second one.
        · intro hlead
          have hvalue := toNat_of_ofNat_eq (by omega) hlead
          simp only [UInt8.reduceToNat] at hvalue
          exact (ofNat_between 0xA0 0xBF (by omega) (by omega) (by decide)).1
        · intro hlead
          have hvalue := toNat_of_ofNat_eq (by omega) hlead
          simp only [UInt8.reduceToNat] at hvalue
          exact (ofNat_between 0x80 0x9F (by omega) (by omega) (by decide)).2
      · simp only [if_neg hone, if_neg htwo, if_neg hthree, List.cons_append, List.nil_append,
          List.length_cons, List.length_nil]
        apply utf8Lead_four
        · exact ofNat_between 0xF0 0xF4 (by omega) (by omega) (by decide)
        · exact tail_range (v / 4096)
        · exact tail_range (v / 64)
        · exact tail_range v
        · intro hlead
          have hvalue := toNat_of_ofNat_eq (by omega) hlead
          simp only [UInt8.reduceToNat] at hvalue
          exact (ofNat_between 0x90 0xBF (by omega) (by omega) (by decide)).1
        · intro hlead
          have hvalue := toNat_of_ofNat_eq (by omega) hlead
          simp only [UInt8.reduceToNat] at hvalue
          exact (ofNat_between 0x80 0x8F (by omega) (by omega) (by decide)).2

/-- One character decodes to itself. -/
theorem utf8Decode_utf8EncodeChar (c : Char) :
    utf8Decode (String.utf8EncodeChar c) = some (.ofList [c]) := by
  have hencode : utf8Encode (.ofList [c]) = String.utf8EncodeChar c := by
    rw [utf8Encode_eq]
    simp
  rw [← hencode, utf8Decode_utf8Encode]

/-- The lenient decoder reads whole characters back. -/
theorem utf8DecodeReplaceFrom_flatMap (chars : List Char) (rounds : Nat)
    (hrounds : (chars.flatMap String.utf8EncodeChar).length ≤ rounds) :
    utf8DecodeReplaceFrom rounds (chars.flatMap String.utf8EncodeChar) = chars := by
  induction chars generalizing rounds with
  | nil => cases rounds <;> rfl
  | cons c chars ih =>
      rw [List.flatMap_cons] at hrounds ⊢
      have hlead := utf8Lead_utf8EncodeChar c (chars.flatMap String.utf8EncodeChar)
      have hdecode := utf8Decode_utf8EncodeChar c
      have hpos : 0 < (String.utf8EncodeChar c).length := by
        rw [String.length_utf8EncodeChar]
        exact Char.utf8Size_pos c
      rw [List.length_append] at hrounds
      generalize String.utf8EncodeChar c = bytes at hlead hdecode hpos hrounds ⊢
      rcases bytes with _ | ⟨b, bytes⟩
      · exact absurd hpos (lt_irrefl 0)
      · cases rounds with
        | zero =>
            rw [List.length_cons] at hrounds
            omega
        | succ rounds =>
            have hleft : (chars.flatMap String.utf8EncodeChar).length ≤ rounds := by
              rw [List.length_cons] at hrounds
              omega
            rw [List.cons_append] at hlead ⊢
            rw [utf8DecodeReplaceFrom, hlead]
            simp only [if_true]
            rw [← List.cons_append, List.take_left, List.drop_left, hdecode, ih rounds hleft,
              Option.map_some, String.toList_ofList]
            rfl

/-- Decoding leniently what was encoded. -/
theorem utf8DecodeReplace_utf8Encode (text : String) : utf8DecodeReplace (utf8Encode text) = text := by
  rw [utf8DecodeReplace, utf8Encode_eq, utf8DecodeReplaceFrom_flatMap _ _ (le_refl _)]
  exact String.ofList_toList

end Priestly
