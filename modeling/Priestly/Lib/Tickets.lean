/-
Module: Priestly.Lib.Tickets
Layer: Lib
Purpose: Tickets that are drawn one after the other and handed in later, in any order. What has been handed in
  and what is still out increases, in this order, exactly as long as every ticket drawn is new and every
  ticket handed in is the oldest one out.
Imports: Mathlib orders and lists
Trusted boundary: none
Main exports: Tickets.InOrder, Tickets.Drawn, Tickets.inOrder_draw, Tickets.inOrder_handIn
-/
import Mathlib.Data.List.Pairwise
import Mathlib.Order.Lattice
import Mathlib.Tactic.Tauto

namespace Priestly

namespace Tickets

variable {α : Type} [LinearOrder α]

/-- The tickets handed in, and behind them the ones that are out, increase. -/
def InOrder (handedIn out : List α) : Prop := (handedIn ++ out).Pairwise (· < ·)

/-- The last ticket drawn is the greatest so far, and the ones that are out are kept in the order in which they
were drawn. -/
structure Drawn (handedIn out : List α) (last : α) : Prop where
  sorted : out.Pairwise (· ≤ ·)
  bound : ∀ ticket ∈ handedIn ++ out, ticket ≤ last
  last_mem : last ∈ handedIn ++ out

section Steps

variable {handedIn out before after : List α} {ticket last : α}

/-- A ticket is drawn that is no less than the last. -/
theorem Drawn.draw (h : Drawn handedIn out last) (hle : last ≤ ticket) :
    Drawn handedIn (out ++ [ticket]) ticket where
  sorted := by
    apply List.pairwise_append.mpr
    refine ⟨h.sorted, List.pairwise_singleton _ _, ?_⟩
    intro earlier hearlier other hother
    rw [List.mem_singleton.mp hother]
    exact (h.bound earlier (List.mem_append_right handedIn hearlier)).trans hle
  bound := by
    intro earlier hearlier
    rw [← List.append_assoc] at hearlier
    rcases List.mem_append.mp hearlier with hold | hnew
    · exact (h.bound earlier hold).trans hle
    · exact (List.mem_singleton.mp hnew).le
  last_mem := by
    rw [← List.append_assoc]
    exact List.mem_append_right _ List.mem_cons_self

/-- A ticket is handed in. -/
theorem Drawn.handIn (h : Drawn handedIn (before ++ ticket :: after) last) :
    Drawn (handedIn ++ [ticket]) (before ++ after) last := by
  have hmem : ∀ other, other ∈ handedIn ++ [ticket] ++ (before ++ after) ↔
      other ∈ handedIn ++ (before ++ ticket :: after) := by
    intro other
    simp only [List.mem_append, List.mem_cons, List.not_mem_nil, or_false]
    tauto
  constructor
  · have hsublist := (List.Sublist.refl before).append (List.sublist_cons_self ticket after)
    exact List.Pairwise.sublist hsublist h.sorted
  · intro other hother
    exact h.bound other ((hmem other).mp hother)
  · exact (hmem last).mpr h.last_mem

/-- A ticket that is drawn keeps the order when it is greater than the last. -/
theorem inOrder_draw (h : Drawn handedIn out last) :
    InOrder handedIn (out ++ [ticket]) ↔ InOrder handedIn out ∧ last < ticket := by
  rw [InOrder, ← List.append_assoc, List.pairwise_append]
  constructor
  · rintro ⟨horder, _, hless⟩
    exact ⟨horder, hless last h.last_mem ticket List.mem_cons_self⟩
  · rintro ⟨horder, hlast⟩
    refine ⟨horder, List.pairwise_singleton _ _, ?_⟩
    intro earlier hearlier other hother
    rw [List.mem_singleton.mp hother]
    exact (h.bound earlier hearlier).trans_lt hlast

/-- A ticket that is handed in keeps the order when none older is out. -/
theorem inOrder_handIn (h : Drawn handedIn (before ++ ticket :: after) last) :
    InOrder (handedIn ++ [ticket]) (before ++ after) ↔
      InOrder handedIn (before ++ ticket :: after) ∧ before = [] := by
  rw [InOrder, InOrder, List.append_assoc, List.singleton_append]
  constructor
  · intro horder
    have hnone : before = [] := by
      -- an older one would be both greater and no greater
      apply List.eq_nil_iff_forall_not_mem.mpr
      intro older holder
      have hless : ticket < older := by
        have hcons := (List.pairwise_append.mp horder).2.1
        exact List.rel_of_pairwise_cons hcons (List.mem_append_left after holder)
      have hle : older ≤ ticket := by
        obtain ⟨_, _, hcross⟩ := List.pairwise_append.mp h.sorted
        exact hcross older holder ticket List.mem_cons_self
      exact absurd hless (not_lt.mpr hle)
    rw [hnone] at horder ⊢
    exact ⟨horder, rfl⟩
  · rintro ⟨horder, rfl⟩
    exact horder

end Steps

end Tickets

end Priestly
