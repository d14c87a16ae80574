/-
Module: Priestly.Lib.Pieces
Layer: Lib
Purpose: A sequence that arrives in pieces. One read takes items of the first piece only, and loses
  nothing: what it got and what is left make up the sequence, wherever it was cut.
Imports: Mathlib list lemmas only
Trusted boundary: none
Main exports: Piece, Piece.flat, Piece.read, Piece.read_append, Piece.length_read_lt
-/
import Mathlib.Data.List.Basic

/-- A piece has at least one item. -/
structure Piece (α : Type) where
  head : α
  tail : List α
deriving DecidableEq, Repr

namespace Piece

variable {α : Type}

/-- The items of a piece. -/
def items (piece : Piece α) : List α := piece.head :: piece.tail

/-- What is left of a piece, if anything. -/
def ofList : List α → List (Piece α)
  | [] => []
  | head :: tail => [{ head, tail }]

/-- The sequence that arrives. -/
def flat (pieces : List (Piece α)) : List α := pieces.flatMap items

@[simp] theorem flat_nil : flat ([] : List (Piece α)) = [] := rfl

@[simp] theorem flat_cons (piece : Piece α) (pieces : List (Piece α)) :
    flat (piece :: pieces) = piece.items ++ flat pieces := rfl

@[simp] theorem flat_ofList (rest : List α) : flat (ofList rest) = rest := by
  cases rest with
  | nil => rfl
  | cons head tail => simp [ofList, items]

@[simp] theorem flat_append (first second : List (Piece α)) :
    flat (first ++ second) = flat first ++ flat second := List.flatMap_append

theorem flat_eq_nil {pieces : List (Piece α)} : flat pieces = [] ↔ pieces = [] := by
  cases pieces with
  | nil => simp
  | cons piece pieces => simp [items]

/-- One read of at most `n` items. -/
def read (n : Nat) : List (Piece α) → List α × List (Piece α)
  | [] => ([], [])
  | piece :: pieces => (piece.items.take n, ofList (piece.items.drop n) ++ pieces)

/-- A read loses nothing. -/
theorem read_append (n : Nat) (pieces : List (Piece α)) :
    (read n pieces).1 ++ flat (read n pieces).2 = flat pieces := by
  cases pieces with
  | nil => rfl
  | cons piece pieces =>
      rw [read, flat_append, flat_ofList, flat_cons, ← List.append_assoc, List.take_append_drop]

theorem length_read_le (n : Nat) (pieces : List (Piece α)) : (read n pieces).1.length ≤ n := by
  cases pieces with
  | nil => exact Nat.zero_le _
  | cons piece pieces => exact List.length_take_le _ _

/-- A read of at least one item gets nothing only where nothing is left. -/
theorem read_eq_nil {n : Nat} (hn : 0 < n) {pieces : List (Piece α)} :
    (read n pieces).1 = [] ↔ pieces = [] := by
  cases pieces with
  | nil => simp [read]
  | cons piece pieces => simp [read, items, Nat.ne_of_gt hn]

/-- A read that gets fewer items than it may take uses up a piece. -/
theorem length_read_lt {n : Nat} {pieces : List (Piece α)} (hne : pieces ≠ [])
    (h : (read n pieces).1.length < n) : (read n pieces).2.length < pieces.length := by
  cases pieces with
  | nil => exact absurd rfl hne
  | cons piece pieces =>
      rw [read, List.length_take] at h
      have hshort : piece.items.length ≤ n := by omega
      rw [read, List.drop_eq_nil_of_le hshort]
      simp [ofList]

end Piece
