/-
Module: Priestly.Lib.Bytes
Layer: Lib
Purpose: Byte strings as lists of octets, the fixed-width big-endian encoding of natural numbers,
  and the lowercase hexadecimal spelling of a byte string. Every encoding comes with the reader that
  inverts it and with the injectivity that protocol proofs rest on.
Imports: Mathlib list induction and the ring tactic only
Trusted boundary: none
Main exports: Bytes, toBytesBE, ofBytesBE, toBytesBE_ofBytesBE, toBytesBE_injOn, hexChars, hexChars_injective
-/
import Mathlib.Data.List.Induction
import Mathlib.Tactic.Ring

namespace ByteCodec

/-- A byte string. -/
abbrev Bytes := List UInt8

/-- What holds of each member of a list is found by running the test along the list. -/
theorem forall_mem_of_all {α : Type} {p : α → Prop} [DecidablePred p] {xs : List α}
    (h : xs.all (fun x => decide (p x)) = true) : ∀ x ∈ xs, p x :=
  fun x hx => of_decide_eq_true (List.all_eq_true.mp h x hx)

/-! ### Big-endian integers -/

/-- The big-endian encoding of `n` on exactly `len` octets, most significant octet first. The part of
`n` above `256 ^ len` is dropped; callers that must not lose it check the bound first. -/
def toBytesBE : Nat → Nat → Bytes
  | 0, _ => []
  | len + 1, n => toBytesBE len (n / 256) ++ [UInt8.ofNat n]

/-- The natural number a byte string spells in big-endian order. -/
def ofBytesBE (bytes : Bytes) : Nat :=
  bytes.foldl (fun acc byte => acc * 256 + byte.toNat) 0

@[simp] theorem ofBytesBE_nil : ofBytesBE [] = 0 := rfl

@[simp] theorem ofBytesBE_concat (bytes : Bytes) (byte : UInt8) :
    ofBytesBE (bytes ++ [byte]) = ofBytesBE bytes * 256 + byte.toNat := by
  simp [ofBytesBE]

/-- The head octet is the most significant one. -/
theorem ofBytesBE_cons (byte : UInt8) (bytes : Bytes) :
    ofBytesBE (byte :: bytes) = byte.toNat * 256 ^ bytes.length + ofBytesBE bytes := by
  induction bytes using List.reverseRecOn with
  | nil => simp [ofBytesBE]
  | append_singleton bytes last ih =>
      rw [← List.cons_append, ofBytesBE_concat, ofBytesBE_concat, ih, List.length_append,
        List.length_singleton, Nat.pow_succ]
      ring

@[simp] theorem length_toBytesBE (len n : Nat) : (toBytesBE len n).length = len := by
  induction len generalizing n with
  | zero => rfl
  | succ len ih => simp [toBytesBE, ih]

/-- Reading an encoding back yields the number reduced to the width. -/
theorem ofBytesBE_toBytesBE (len n : Nat) :
    ofBytesBE (toBytesBE len n) = n % 256 ^ len := by
  induction len generalizing n with
  | zero => simp [toBytesBE, Nat.mod_one]
  | succ len ih =>
      have low : (UInt8.ofNat n).toNat = n % 256 := by simp
      rw [toBytesBE, ofBytesBE_concat, ih, low, Nat.pow_succ', Nat.mod_mul]
      omega

/-- A number that fits the width survives the round trip. -/
theorem ofBytesBE_toBytesBE_of_lt {len n : Nat} (h : n < 256 ^ len) :
    ofBytesBE (toBytesBE len n) = n := by
  rw [ofBytesBE_toBytesBE, Nat.mod_eq_of_lt h]

/-- Encoding the number that a byte string spells gives the byte string back. -/
theorem toBytesBE_ofBytesBE (bytes : Bytes) : toBytesBE bytes.length (ofBytesBE bytes) = bytes := by
  induction bytes using List.reverseRecOn with
  | nil => rfl
  | append_singleton bytes last ih =>
      have hlast : last.toNat < 256 := last.toNat_lt
      have hhigh : (ofBytesBE bytes * 256 + last.toNat) / 256 = ofBytesBE bytes := by omega
      have hlow : UInt8.ofNat (ofBytesBE bytes * 256 + last.toNat) = last := by
        apply UInt8.toNat_inj.mp
        rw [UInt8.toNat_ofNat']
        omega
      rw [List.length_append, List.length_singleton, toBytesBE, ofBytesBE_concat, hhigh, hlow, ih]

/-- On numbers that fit the width the encoding is injective. -/
theorem toBytesBE_injOn {len m n : Nat} (hm : m < 256 ^ len) (hn : n < 256 ^ len)
    (h : toBytesBE len m = toBytesBE len n) : m = n := by
  rw [← ofBytesBE_toBytesBE_of_lt hm, ← ofBytesBE_toBytesBE_of_lt hn, h]

/-- A byte string spells a number below `256 ^ length`. -/
theorem ofBytesBE_lt (bytes : Bytes) : ofBytesBE bytes < 256 ^ bytes.length := by
  induction bytes using List.reverseRecOn with
  | nil => simp
  | append_singleton bytes byte ih =>
      have hbyte : byte.toNat < 256 := byte.toNat_lt
      rw [ofBytesBE_concat, List.length_append, List.length_singleton, Nat.pow_succ]
      omega

/-! ### Lowercase hexadecimal -/

/-- One lowercase hexadecimal digit. -/
def hexDigit (value : Nat) : Char :=
  if value < 10 then Char.ofNat (48 + value) else Char.ofNat (87 + value)

/-- The value of a hexadecimal digit of either case. -/
def hexValue? (c : Char) : Option Nat :=
  if '0' ≤ c ∧ c ≤ '9' then some (c.toNat - 48)
  else if 'a' ≤ c ∧ c ≤ 'f' then some (c.toNat - 87)
  else if 'A' ≤ c ∧ c ≤ 'F' then some (c.toNat - 55)
  else none

theorem hexValue?_hexDigit {value : Nat} (h : value < 16) :
    hexValue? (hexDigit value) = some value := by
  have all : ∀ v : Fin 16, hexValue? (hexDigit v) = some v.val := by decide
  exact all ⟨value, h⟩

/-- Two lowercase digits for each octet. -/
def hexChars : Bytes → List Char
  | [] => []
  | byte :: bytes =>
      hexDigit (byte.toNat / 16) :: hexDigit (byte.toNat % 16) :: hexChars bytes

/-- The hexadecimal spelling as a string. -/
def hexString (bytes : Bytes) : String := String.ofList (hexChars bytes)

@[simp] theorem toList_hexString (bytes : Bytes) : (hexString bytes).toList = hexChars bytes :=
  String.toList_ofList

private theorem hexDigit_inj {m n : Nat} (hm : m < 16) (hn : n < 16)
    (h : hexDigit m = hexDigit n) : m = n := by
  have := congrArg hexValue? h
  rw [hexValue?_hexDigit hm, hexValue?_hexDigit hn] at this
  exact Option.some.inj this

theorem hexChars_injective : Function.Injective hexChars := by
  intro left
  induction left with
  | nil =>
      intro right h
      cases right with
      | nil => rfl
      | cons byte right => simp [hexChars] at h
  | cons byte left ih =>
      intro right h
      cases right with
      | nil => simp [hexChars] at h
      | cons other right =>
          simp only [hexChars, List.cons.injEq] at h
          obtain ⟨hhigh, hlow, hrest⟩ := h
          have hb : byte.toNat < 256 := byte.toNat_lt
          have ho : other.toNat < 256 := other.toNat_lt
          have high := hexDigit_inj (by omega) (by omega) hhigh
          have low := hexDigit_inj (by omega) (by omega) hlow
          have same : byte = other := UInt8.toNat_inj.mp (by omega)
          rw [same, ih hrest]

theorem hexString_injective : Function.Injective hexString := by
  intro left right h
  exact hexChars_injective (String.ofList_injective h)

/-- Every character of a hexadecimal spelling is one of the sixteen lowercase digits. -/
theorem exists_hexDigit_of_mem {bytes : Bytes} {c : Char} (h : c ∈ hexChars bytes) :
    ∃ value < 16, c = hexDigit value := by
  induction bytes with
  | nil => simp [hexChars] at h
  | cons byte bytes ih =>
      have hb : byte.toNat < 256 := byte.toNat_lt
      simp only [hexChars, List.mem_cons] at h
      rcases h with rfl | rfl | h
      · exact ⟨_, by omega, rfl⟩
      · exact ⟨_, by omega, rfl⟩
      · exact ih h

end ByteCodec
