/-
Module: Priestly.Lib.Mailbox
Layer: Lib
Purpose: A mailbox that is first in, first out on both sides: an item that arrives goes to the reader that
  has waited longest or is kept, and a reader takes the oldest item or waits. Two histories record what
  has arrived and who has been given it; a mailbox carries the proof that they agree with what is kept.
Imports: Mathlib option and list tactics
Trusted boundary: none
Main exports: Mailbox, Mailbox.put, Mailbox.take, Mailbox.Matched, Mailbox.Greeted
-/
import Mathlib.Tactic.Cases
import Mathlib.Tactic.Common

/-- Items that nobody has taken, and readers that nothing has reached yet. -/
structure Mailbox (α κ : Type) where
  inbox : List α
  waiters : List κ
  /-- Every item that has arrived. -/
  arrived : List α
  /-- Every item that was handed over, and the reader that got it. -/
  consumed : List (α × κ)
  /-- Items are handed over in the order they arrived, each of them once. -/
  accounts : arrived = consumed.map Prod.fst ++ inbox
  /-- Nothing is kept while a reader waits. -/
  idle : inbox = [] ∨ waiters = []

namespace Mailbox

variable {α κ ι : Type}

/-- The mailbox at the start. -/
def empty : Mailbox α κ :=
  { inbox := [], waiters := [], arrived := [], consumed := [], accounts := rfl, idle := .inl rfl }

/-- An item arrives; the reader that is woken by it. -/
def put (item : α) : Mailbox α κ → Option κ × Mailbox α κ
  | ⟨inbox, [], arrived, consumed, accounts, _⟩ =>
      (none,
        { inbox := inbox ++ [item]
          waiters := []
          arrived := arrived ++ [item]
          consumed
          accounts := by rw [accounts, List.append_assoc]
          idle := .inr rfl })
  | ⟨inbox, waiter :: waiters, arrived, consumed, accounts, idle⟩ =>
      (some waiter,
        { inbox
          waiters
          arrived := arrived ++ [item]
          consumed := consumed ++ [(item, waiter)]
          accounts := by
            have hinbox : inbox = [] := idle.resolve_right (List.cons_ne_nil waiter waiters)
            rw [accounts, hinbox, List.map_append, List.append_nil, List.append_nil]
            rfl
          idle := .inl (idle.resolve_right (List.cons_ne_nil waiter waiters)) })

/-- A reader asks for an item; the item it is given at once. -/
def take (reader : κ) : Mailbox α κ → Option α × Mailbox α κ
  | ⟨[], waiters, arrived, consumed, accounts, _⟩ =>
      (none, { inbox := [], waiters := waiters ++ [reader], arrived, consumed, accounts, idle := .inl rfl })
  | ⟨item :: inbox, waiters, arrived, consumed, accounts, idle⟩ =>
      (some item,
        { inbox
          waiters
          arrived
          consumed := consumed ++ [(item, reader)]
          accounts := by
            rw [accounts, List.map_append, List.append_assoc]
            rfl
          idle := .inr (idle.resolve_left (List.cons_ne_nil item inbox)) })

/-! ### What one operation does -/

section Operations

variable (box : Mailbox α κ) (item : α) (reader : κ)

@[simp] theorem arrived_put : (box.put item).2.arrived = box.arrived ++ [item] := by
  rcases box with ⟨inbox, _ | ⟨waiter, waiters⟩, arrived, consumed, accounts, idle⟩
  · rfl
  · rfl

@[simp] theorem arrived_take : (box.take reader).2.arrived = box.arrived := by
  rcases box with ⟨_ | ⟨item, inbox⟩, waiters, arrived, consumed, accounts, idle⟩
  · rfl
  · rfl

/-- An item wakes the reader that has waited longest, or it is kept. -/
theorem put_cases :
    (∃ waiter, (box.put item).1 = some waiter ∧ box.waiters = waiter :: (box.put item).2.waiters ∧
      (box.put item).2.inbox = box.inbox ∧
      (box.put item).2.consumed = box.consumed ++ [(item, waiter)]) ∨
    ((box.put item).1 = none ∧ box.waiters = [] ∧ (box.put item).2.waiters = [] ∧
      (box.put item).2.inbox = box.inbox ++ [item] ∧ (box.put item).2.consumed = box.consumed) := by
  rcases box with ⟨inbox, _ | ⟨waiter, waiters⟩, arrived, consumed, accounts, idle⟩
  · right
    exact ⟨rfl, rfl, rfl, rfl, rfl⟩
  · left
    exact ⟨waiter, rfl, rfl, rfl, rfl⟩

/-- A reader is given the oldest item, or it waits behind the others. -/
theorem take_cases :
    (∃ item, (box.take reader).1 = some item ∧ box.inbox = item :: (box.take reader).2.inbox ∧
      (box.take reader).2.waiters = box.waiters ∧
      (box.take reader).2.consumed = box.consumed ++ [(item, reader)]) ∨
    ((box.take reader).1 = none ∧ box.inbox = [] ∧ (box.take reader).2.inbox = [] ∧
      (box.take reader).2.waiters = box.waiters ++ [reader] ∧
      (box.take reader).2.consumed = box.consumed) := by
  rcases box with ⟨_ | ⟨item, inbox⟩, waiters, arrived, consumed, accounts, idle⟩
  · right
    exact ⟨rfl, rfl, rfl, rfl, rfl⟩
  · left
    exact ⟨item, rfl, rfl, rfl, rfl⟩

end Operations

/-! ### Who gets what -/

/-- Every item that was handed over suits the reader that got it. -/
def Matched (suits : α → κ → Prop) (box : Mailbox α κ) : Prop :=
  ∀ entry ∈ box.consumed, suits entry.1 entry.2

/-- The first item under a key is handed over at once, to a reader for that key. -/
def Greeted (key : α → ι) (greets : ι → κ → Prop) (box : Mailbox α κ) : Prop :=
  ∀ (i : Nat) (item : α), box.arrived[i]? = some item →
    (∀ (j : Nat) (earlier : α), j < i → box.arrived[j]? = some earlier → key earlier ≠ key item) →
    ∃ reader, box.consumed[i]? = some (item, reader) ∧ greets (key item) reader

section Rules

variable {suits : α → κ → Prop} {key : α → ι} {greets : ι → κ → Prop}
variable {box : Mailbox α κ} {item : α} {reader : κ}

theorem matched_empty : (empty : Mailbox α κ).Matched suits := by
  intro entry hentry
  cases hentry

theorem greeted_empty : (empty : Mailbox α κ).Greeted key greets := by
  intro i item hitem
  cases hitem

/-- An item has to suit the reader it wakes. -/
theorem Matched.put (h : box.Matched suits)
    (hsuits : ∀ waiter rest, box.waiters = waiter :: rest → suits item waiter) :
    (box.put item).2.Matched suits := by
  intro entry hentry
  rcases box.put_cases item with ⟨waiter, _, hwaiters, _, hconsumed⟩ | ⟨_, _, _, _, hconsumed⟩
  · rw [hconsumed] at hentry
    rcases List.mem_append.mp hentry with hold | hnew
    · exact h entry hold
    · obtain rfl := List.mem_singleton.mp hnew
      exact hsuits waiter _ hwaiters
  · rw [hconsumed] at hentry
    exact h entry hentry

/-- The oldest item has to suit the reader that asks. -/
theorem Matched.take (h : box.Matched suits)
    (hsuits : ∀ item rest, box.inbox = item :: rest → suits item reader) :
    (box.take reader).2.Matched suits := by
  intro entry hentry
  rcases box.take_cases reader with ⟨item, _, hinbox, _, hconsumed⟩ | ⟨_, _, _, _, hconsumed⟩
  · rw [hconsumed] at hentry
    rcases List.mem_append.mp hentry with hold | hnew
    · exact h entry hold
    · obtain rfl := List.mem_singleton.mp hnew
      exact hsuits item _ hinbox
  · rw [hconsumed] at hentry
    exact h entry hentry

/-- An item that is the first under its key has to find a reader for the key at the front. -/
theorem Greeted.put (h : box.Greeted key greets)
    (hfront : (∀ earlier ∈ box.arrived, key earlier ≠ key item) →
      ∃ waiter rest, box.waiters = waiter :: rest ∧ greets (key item) waiter) :
    (box.put item).2.Greeted key greets := by
  intro i first hfirst hearlier
  rw [arrived_put] at hfirst hearlier
  by_cases hi : i < box.arrived.length
  · rw [List.getElem?_append_left hi] at hfirst
    have hold : ∀ j earlier, j < i → box.arrived[j]? = some earlier → key earlier ≠ key first := by
      intro j earlier hj hget
      apply hearlier j earlier hj
      rw [List.getElem?_append_left (Nat.lt_trans hj hi)]
      exact hget
    obtain ⟨reader, hreader, hgreets⟩ := h i first hfirst hold
    refine ⟨reader, ?_, hgreets⟩
    obtain ⟨hlt, _⟩ := List.getElem?_eq_some_iff.mp hreader
    rcases box.put_cases item with ⟨_, _, _, _, hconsumed⟩ | ⟨_, _, _, _, hconsumed⟩
    · rw [hconsumed, List.getElem?_append_left hlt]
      exact hreader
    · rw [hconsumed]
      exact hreader
  · -- The item itself.
    have hlength : i = box.arrived.length := by
      obtain ⟨hlt, _⟩ := List.getElem?_eq_some_iff.mp hfirst
      rw [List.length_append, List.length_singleton] at hlt
      omega
    have hitem : first = item := by
      rw [hlength, List.getElem?_append_right (Nat.le_refl _), Nat.sub_self] at hfirst
      exact (Option.some.inj hfirst).symm
    rw [hitem] at hearlier ⊢
    have hnone : ∀ earlier ∈ box.arrived, key earlier ≠ key item := by
      intro earlier hmem
      obtain ⟨j, hj, hget⟩ := List.mem_iff_getElem.mp hmem
      apply hearlier j earlier (hlength ▸ hj)
      rw [List.getElem?_append_left hj, List.getElem?_eq_getElem hj, hget]
    obtain ⟨waiter, rest, hwaiters, hgreets⟩ := hfront hnone
    have hinbox : box.inbox = [] := by
      apply box.idle.resolve_right
      rw [hwaiters]
      exact List.cons_ne_nil waiter rest
    have hconsumedLength : box.arrived.length = box.consumed.length := by
      rw [box.accounts, hinbox, List.append_nil, List.length_map]
    rcases box.put_cases item with ⟨waiter', _, hwaiters', _, hconsumed⟩ | ⟨_, hno, _⟩
    · rw [hwaiters] at hwaiters'
      obtain ⟨rfl, _⟩ := List.cons.inj hwaiters'
      refine ⟨waiter, ?_, hgreets⟩
      rw [hconsumed, hlength, hconsumedLength, List.getElem?_append_right (Nat.le_refl _),
        Nat.sub_self]
      rfl
    · rw [hno] at hwaiters
      cases hwaiters

/-- Asking for an item changes nothing about the items that were handed over before. -/
theorem Greeted.take (h : box.Greeted key greets) : (box.take reader).2.Greeted key greets := by
  intro i first hfirst hearlier
  rw [arrived_take] at hfirst hearlier
  obtain ⟨reader', hreader, hgreets⟩ := h i first hfirst hearlier
  refine ⟨reader', ?_, hgreets⟩
  obtain ⟨hlt, _⟩ := List.getElem?_eq_some_iff.mp hreader
  rcases box.take_cases reader with ⟨_, _, _, _, hconsumed⟩ | ⟨_, _, _, _, hconsumed⟩
  · rw [hconsumed, List.getElem?_append_left hlt]
    exact hreader
  · rw [hconsumed]
    exact hreader

end Rules

end Mailbox
