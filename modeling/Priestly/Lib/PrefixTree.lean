/-
Module: Priestly.Lib.PrefixTree
Layer: Lib
Purpose: Binary trees with symbols at the leaves, read as prefix codes: the path to a leaf is the code
  of its symbol, and following the path from the root leads back to the leaf.
Imports: Mathlib list lemmas only
Trusted boundary: none
Main exports: PrefixTree, PrefixTree.symbols, PrefixTree.paths, PrefixTree.child,
  PrefixTree.PrefixFree, PrefixTree.prefixFree_paths, PrefixTree.exists_path, PrefixTree.weight,
  PrefixTree.pathCost
-/
import Mathlib.Algebra.BigOperators.Group.List.Basic
import Mathlib.Tactic.Ring

/-- A binary tree that carries a symbol at each leaf. -/
inductive PrefixTree (α : Type) where
  | leaf (symbol : α)
  | branch (left right : PrefixTree α)
deriving DecidableEq, Repr

namespace PrefixTree

variable {α : Type}

/-- The symbols of a tree, from left to right. -/
def symbols : PrefixTree α → List α
  | leaf symbol => [symbol]
  | branch left right => left.symbols ++ right.symbols

/-- Whether a tree is a single leaf. -/
def isLeaf : PrefixTree α → Bool
  | leaf _ => true
  | branch _ _ => false

/-- The child a bit leads to. A leaf has none and stays where it is. -/
def child : PrefixTree α → Bool → PrefixTree α
  | leaf symbol, _ => leaf symbol
  | branch left right, bit => if bit then right else left

/-- Each symbol with the path that leads to it. -/
def paths : PrefixTree α → List (α × List Bool)
  | leaf symbol => [(symbol, [])]
  | branch left right =>
      (left.paths.map fun entry => (entry.1, false :: entry.2)) ++
        (right.paths.map fun entry => (entry.1, true :: entry.2))

@[simp] theorem map_fst_paths (tree : PrefixTree α) : tree.paths.map Prod.fst = tree.symbols := by
  induction tree with
  | leaf symbol => rfl
  | branch left right ihl ihr =>
      rw [paths, List.map_append, List.map_map, List.map_map, symbols, ← ihl, ← ihr]
      rfl

/-- A table of codes in which no code begins the code of another entry. -/
def PrefixFree (table : List (α × List Bool)) : Prop :=
  table.Pairwise fun first second => ¬ first.2 <+: second.2 ∧ ¬ second.2 <+: first.2

/-- The paths to the leaves of a tree are prefix-free. -/
theorem prefixFree_paths (tree : PrefixTree α) : PrefixFree tree.paths := by
  induction tree with
  | leaf symbol => exact List.pairwise_singleton _ _
  | branch left right ihl ihr =>
      rw [PrefixFree, paths, List.pairwise_append, List.pairwise_map, List.pairwise_map]
      refine ⟨?_, ?_, ?_⟩
      · apply ihl.imp
        intro first second h
        simpa only [List.prefix_cons_inj] using h
      · apply ihr.imp
        intro first second h
        simpa only [List.prefix_cons_inj] using h
      · intro first hfirst second hsecond
        -- The two sides already differ in the first bit.
        rcases List.mem_map.mp hfirst with ⟨inner, _, rfl⟩
        rcases List.mem_map.mp hsecond with ⟨outer, _, rfl⟩
        simp

/-- Every symbol of a tree is found in its path table. -/
theorem exists_path [DecidableEq α] {tree : PrefixTree α} {symbol : α}
    (h : symbol ∈ tree.symbols) :
    ∃ path, tree.paths.lookup symbol = some path ∧ (symbol, path) ∈ tree.paths := by
  rw [← map_fst_paths, List.mem_map] at h
  obtain ⟨entry, hmem, rfl⟩ := h
  generalize tree.paths = table at hmem ⊢
  induction table with
  | nil => cases hmem
  | cons first rest ih =>
      by_cases hfirst : entry.1 = first.1
      · refine ⟨first.2, ?_, ?_⟩
        · rw [List.lookup_cons, hfirst, beq_self_eq_true]
        · simp [hfirst]
      · have htail : entry ∈ rest := by
          rcases List.mem_cons.mp hmem with rfl | hrest
          · exact absurd rfl hfirst
          · exact hrest
        obtain ⟨path, hlookup, hpath⟩ := ih htail
        refine ⟨path, ?_, List.mem_cons_of_mem _ hpath⟩
        rw [List.lookup_cons, beq_eq_false_iff_ne.mpr hfirst]
        exact hlookup

/-! ### Weights -/

/-- The weight of the symbols of a tree. -/
def weight (weightOf : α → Nat) (tree : PrefixTree α) : Nat := (tree.symbols.map weightOf).sum

/-- What the paths of a tree cost when each symbol has a weight. -/
def pathCost (weightOf : α → Nat) (tree : PrefixTree α) : Nat :=
  (tree.paths.map fun entry => weightOf entry.1 * entry.2.length).sum

theorem weight_branch (weightOf : α → Nat) (left right : PrefixTree α) :
    (branch left right).weight weightOf = left.weight weightOf + right.weight weightOf := by
  rw [weight, symbols, List.map_append, List.sum_append]
  rfl

/-- Going down one level more costs what the tree below weighs. -/
theorem sum_paths_cons (weightOf : α → Nat) (tree : PrefixTree α) (bit : Bool) :
    ((tree.paths.map fun entry => (entry.1, bit :: entry.2)).map fun entry =>
      weightOf entry.1 * entry.2.length).sum = tree.weight weightOf + tree.pathCost weightOf := by
  have hweight : tree.weight weightOf = (tree.paths.map fun entry => weightOf entry.1).sum := by
    rw [weight, ← map_fst_paths, List.map_map]
    rfl
  rw [hweight, pathCost, ← List.sum_map_add, List.map_map]
  apply congrArg List.sum
  apply List.map_congr_left
  intro entry _
  simp only [Function.comp_apply, List.length_cons]
  ring

/-- A tree costs what it weighs on top of what its children cost. -/
theorem pathCost_branch (weightOf : α → Nat) (left right : PrefixTree α) :
    (branch left right).pathCost weightOf =
      (branch left right).weight weightOf + (left.pathCost weightOf + right.pathCost weightOf) := by
  rw [pathCost, paths, List.map_append, List.sum_append, sum_paths_cons, sum_paths_cons, weight_branch]
  ring

end PrefixTree
