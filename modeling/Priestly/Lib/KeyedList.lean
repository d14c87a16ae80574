/-
Module: Priestly.Lib.KeyedList
Layer: Lib
Purpose: Lists whose elements carry strictly increasing keys, as a log does. A sublist grows
  by any element whose key lies above the keys it has.
Imports: Mathlib orders and list lemmas
Trusted boundary: none
Main exports: Increasing, Increasing.concat, Increasing.sublist_concat
-/
import Mathlib.Data.List.Basic
import Mathlib.Order.Basic

/-- The keys of the list strictly increase. -/
def Increasing {α κ : Type} [LT κ] (key : α → κ) (items : List α) : Prop :=
  items.Pairwise fun a b => key a < key b

namespace Increasing

variable {α κ : Type} {key : α → κ} {items : List α} {x : α}

theorem nil [LT κ] : Increasing key ([] : List α) := List.Pairwise.nil

/-- A list grows at its end by an element with a larger key. -/
theorem concat [LT κ] (h : Increasing key items) (hx : ∀ a ∈ items, key a < key x) :
    Increasing key (items ++ [x]) := by
  apply List.pairwise_append.mpr
  refine ⟨h, List.pairwise_singleton _ _, ?_⟩
  intro a ha b hb
  rw [List.mem_singleton.mp hb]
  exact hx a ha

/-- A sublist grows by an element of the list whose key lies above all it has. -/
theorem sublist_concat [Preorder κ] {sub : List α} (h : Increasing key items) (hsub : sub.Sublist items)
    (hx : x ∈ items) (habove : ∀ a ∈ sub, key a < key x) : (sub ++ [x]).Sublist items := by
  obtain ⟨before, after, rfl⟩ := List.append_of_mem hx
  obtain ⟨left, right, rfl, hleft, hright⟩ := List.sublist_append_iff.mp hsub
  -- From `x` on no key is below the key of `x`, so nothing of the sublist lies there.
  have hnone : right = [] := by
    cases right with
    | nil => rfl
    | cons a right =>
        have habelow := habove a (by simp)
        have ha : a ∈ x :: after := hright.subset List.mem_cons_self
        rcases List.mem_cons.mp ha with rfl | hafter
        · exact absurd habelow (lt_irrefl _)
        · have htail := (List.pairwise_append.mp h).2.1
          exact absurd (habelow.trans (List.rel_of_pairwise_cons htail hafter)) (lt_irrefl _)
  rw [hnone, List.append_nil]
  exact hleft.append (List.singleton_sublist.mpr List.mem_cons_self)

end Increasing
