/-
Module: Priestly.Lib.TextTemplate
Layer: Lib
Purpose: Texts made of fixed literals with holes for quoted strings and for integers. Rendering a
  template and reading it back are inverse, whatever text follows; a quoted string may hold any
  characters.
Imports: Mathlib tactics
Trusted boundary: none
Main exports: Segment, Value, render, read, read_render
-/
import Mathlib.Tactic.Cases
import Mathlib.Tactic.Common

namespace TextTemplate

/-! ### Quoted strings -/

/-- The character for a value below sixteen. -/
def lowHex (value : Nat) : Char := Nat.digitChar value

/-- A character inside quotes: quotes, backslashes and control characters are escaped. -/
def escapeChar (c : Char) : List Char :=
  if c = '"' ∨ c = '\\' ∨ c.toNat < 32 then
    ['\\', 'u', '0', '0', lowHex (c.toNat / 16), lowHex (c.toNat % 16)]
  else [c]

def escape (chars : List Char) : List Char := chars.flatMap escapeChar

/-- Escaping shortens nothing. -/
theorem length_le_escape (chars : List Char) : chars.length ≤ (escape chars).length := by
  have hpos : ∀ c : Char, 1 ≤ (escapeChar c).length := by
    intro c
    rw [escapeChar]
    by_cases h : c = '"' ∨ c = '\\' ∨ c.toNat < 32
    · rw [if_pos h]
      simp
    · rw [if_neg h]
      simp
  induction chars with
  | nil => exact Nat.le_refl _
  | cons c chars ih =>
      rw [escape, List.flatMap_cons, List.length_append, List.length_cons, Nat.add_comm]
      exact Nat.add_le_add (hpos c) ih

/-- The value of a digit written by `lowHex`. -/
def lowHexValue (c : Char) : Nat := if c.isDigit then c.toNat - 48 else c.toNat - 87

/-- Read up to the closing quote, which is dropped. -/
def readQuoted : List Char → Option (List Char × List Char)
  | [] => none
  | '"' :: rest => some ([], rest)
  | '\\' :: 'u' :: '0' :: '0' :: high :: low :: rest =>
      (readQuoted rest).map fun (chars, rest) =>
        (Char.ofNat (lowHexValue high * 16 + lowHexValue low) :: chars, rest)
  | '\\' :: _ => none
  | c :: rest => (readQuoted rest).map fun (chars, rest) => (c :: chars, rest)

private theorem readQuoted_escapeChar (c : Char) (rest : List Char) :
    readQuoted (escapeChar c ++ rest) =
      (readQuoted rest).map fun (chars, rest) => (c :: chars, rest) := by
  rw [escapeChar]
  by_cases h : c = '"' ∨ c = '\\' ∨ c.toNat < 32
  · rw [if_pos h]
    have hbound : c.toNat < 128 := by
      rcases h with rfl | rfl | h
      · decide
      · decide
      · omega
    have digits : ∀ n : Fin 128,
        Char.ofNat (lowHexValue (lowHex (n / 16)) * 16 + lowHexValue (lowHex (n % 16))) =
          Char.ofNat n := by decide
    have hchar : Char.ofNat (lowHexValue (lowHex (c.toNat / 16)) * 16 +
        lowHexValue (lowHex (c.toNat % 16))) = c := by
      rw [digits ⟨c.toNat, hbound⟩, Char.ofNat_toNat]
    simp only [List.cons_append, List.nil_append, readQuoted, hchar]
  · rw [if_neg h]
    obtain ⟨hquote, hrest⟩ := not_or.mp h
    obtain ⟨hslash, _⟩ := not_or.mp hrest
    rw [List.singleton_append, readQuoted]
    · exact hquote
    · intro _ _ _ hc
      exact absurd hc hslash
    · exact hslash

/-- Whatever stands inside the quotes is read back. -/
theorem readQuoted_escape (chars rest : List Char) :
    readQuoted (escape chars ++ '"' :: rest) = some (chars, rest) := by
  induction chars with
  | nil => rfl
  | cons c chars ih =>
      rw [escape, List.flatMap_cons, List.append_assoc, readQuoted_escapeChar]
      rw [escape] at ih
      rw [ih]
      rfl

/-! ### Integers -/

/-- Read decimal digits. -/
def readNat (digits : List Char) : Option Nat :=
  if digits ≠ [] ∧ digits.all Char.isDigit = true then some (Nat.ofDigitChars 10 digits 0) else none

/-- Read a decimal integer. -/
def readInt : List Char → Option Int
  | '-' :: digits => (readNat digits).map Int.negOfNat
  | digits => (readNat digits).map Int.ofNat

private theorem isDigit_of_mem_repr {n : Nat} {c : Char} (h : c ∈ n.repr.toList) : c.isDigit = true := by
  rw [Nat.toList_repr] at h
  exact Nat.isDigit_of_mem_toDigits (by decide) (by decide) h

private theorem readNat_repr (n : Nat) : readNat n.repr.toList = some n := by
  have hdigits : n.repr.toList ≠ [] := by
    rw [Nat.toList_repr]
    exact Nat.toDigits_ne_nil
  have hall : n.repr.toList.all Char.isDigit = true :=
    List.all_eq_true.mpr fun c hc => isDigit_of_mem_repr hc
  rw [readNat, if_pos ⟨hdigits, hall⟩, Nat.toList_repr, Nat.ofDigitChars_ten_toDigits]

private theorem readInt_repr (number : Int) : readInt number.repr.toList = some number := by
  rw [Int.repr_eq_if]
  by_cases h : 0 ≤ number
  · rw [if_pos h]
    have hsign : ∀ digits, number.toNat.repr.toList ≠ '-' :: digits := by
      intro digits hdigits
      have hdigit : ('-' : Char).isDigit = true := by
        apply @isDigit_of_mem_repr number.toNat
        rw [hdigits]
        exact List.mem_cons_self
      cases hdigit
    rw [readInt, readNat_repr, Option.map_some]
    · exact congrArg some (Int.toNat_of_nonneg h)
    · exact hsign
  · rw [if_neg h, String.toList_append]
    change readInt ('-' :: (-number).toNat.repr.toList) = some number
    rw [readInt, readNat_repr, Option.map_some, Int.negOfNat_eq]
    have hnonneg : ((-number).toNat : Int) = -number := Int.toNat_of_nonneg (by omega)
    exact congrArg some (by rw [Int.ofNat_eq_natCast, hnonneg, Int.neg_neg])

/-! ### Templates -/

/-- A piece of a template: a literal, a quoted string, or an integer followed by a comma. -/
inductive Segment where
  | lit (text : String)
  | str
  | int
deriving DecidableEq, Repr

/-- What fills a hole. -/
inductive Value where
  | str (text : String)
  | int (number : Int)
deriving DecidableEq, Repr

/-- Fill the holes of a template. -/
def render : List Segment → List Value → List Char
  | .lit text :: segments, values => text.toList ++ render segments values
  | .str :: segments, .str text :: values =>
      '"' :: (escape text.toList ++ '"' :: render segments values)
  | .int :: segments, .int number :: values =>
      number.repr.toList ++ ',' :: render segments values
  | _, _ => []

/-- Whether the values fit the holes. -/
def Fits : List Segment → List Value → Prop
  | [], [] => True
  | .lit _ :: segments, values => Fits segments values
  | .str :: segments, .str _ :: values => Fits segments values
  | .int :: segments, .int _ :: values => Fits segments values
  | _, _ => False

/-- Read the values from a text, with what is left of it. -/
def read : List Segment → List Char → Option (List Value × List Char)
  | [], chars => some ([], chars)
  | .lit text :: segments, chars =>
      if chars.take text.toList.length = text.toList then
        read segments (chars.drop text.toList.length)
      else none
  | .str :: segments, '"' :: chars => do
      let (text, rest) ← readQuoted chars
      let (values, rest) ← read segments rest
      return (.str (.ofList text) :: values, rest)
  | .str :: _, _ => none
  | .int :: segments, chars => do
      let number ← readInt (chars.takeWhile (· ≠ ','))
      let (values, rest) ← read segments ((chars.dropWhile (· ≠ ',')).drop 1)
      return (.int number :: values, rest)

private theorem comma_not_mem_repr (number : Int) : ∀ c ∈ number.repr.toList, c ≠ ',' := by
  have hnat : ∀ n : Nat, ∀ c ∈ n.repr.toList, c ≠ ',' := by
    intro n c hc
    have hdigit := isDigit_of_mem_repr hc
    rintro rfl
    cases hdigit
  intro c hc
  rw [Int.repr_eq_if] at hc
  by_cases h : 0 ≤ number
  · rw [if_pos h] at hc
    exact hnat _ c hc
  · rw [if_neg h, String.toList_append] at hc
    rcases List.mem_append.mp hc with hsign | hdigits
    · have : c = '-' := by simpa using hsign
      rw [this]
      decide
    · exact hnat _ c hdigits

/-- Reading a rendered template gives the values back. -/
theorem read_render {segments : List Segment} {values : List Value} (h : Fits segments values)
    (rest : List Char) : read segments (render segments values ++ rest) = some (values, rest) := by
  fun_induction Fits segments values with
  | case1 => rfl
  | case2 text segments values ih =>
      rw [render, read, List.append_assoc, List.take_left, if_pos rfl, List.drop_left]
      exact ih h
  | case3 segments text values ih =>
      rw [render, List.cons_append, List.append_assoc, List.cons_append, read, readQuoted_escape]
      simp [ih h]
  | case4 segments number values ih =>
      have hstop : ∀ tail : List Char,
          (number.repr.toList ++ ',' :: tail).takeWhile (· ≠ ',') = number.repr.toList ∧
          (number.repr.toList ++ ',' :: tail).dropWhile (· ≠ ',') = ',' :: tail := by
        intro tail
        have hall : ∀ c ∈ number.repr.toList, decide (c ≠ ',') = true := by
          intro c hc
          exact decide_eq_true (comma_not_mem_repr number c hc)
        refine ⟨?_, ?_⟩
        · rw [List.takeWhile_append_of_pos hall]
          simp
        · rw [List.dropWhile_append_of_pos hall]
          simp
      obtain ⟨htake, hdrop⟩ := hstop (render segments values ++ rest)
      rw [render, List.append_assoc, List.cons_append, read, htake, hdrop, readInt_repr]
      simp [ih h]
  | case5 => exact h.elim

end TextTemplate
