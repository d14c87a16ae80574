/-
Module: Priestly.Lib.PriorityQueue
Layer: Lib
Purpose: Priority queues by their laws, over a comparison that may fail, and the loop that pops two entries and
  pushes their merge until one is left. Where the entries can always be told apart, the loop ends with the
  same entry whatever queue runs it and in whatever order the entries came.
Imports: none
Trusted boundary: none
Main exports: Comparable, Queue, least_unique, Queue.mergeRounds, Queue.Visited, Invariant,
  Queue.Visited.holds, Queue.Visited.mergeRounds, mergeRounds_agree
-/
import Mathlib.Data.List.Sort

namespace Priestly

namespace PriorityQueue

variable {α ε : Type}

/-- The comparison of two entries answers, both ways round, and puts the first below the second. -/
def Below (lt : α → α → Except ε Bool) (a b : α) : Prop := lt a b = .ok true ∧ lt b a = .ok false

/-- Of any two of the entries one is below the other. -/
def Comparable (lt : α → α → Except ε Bool) (entries : List α) : Prop :=
  entries.Pairwise fun a b => Below lt a b ∨ Below lt b a

/-- A priority queue kept in a list: what its operations do to entries that can be compared. Of other entries
nothing is said; there an operation may fail with the comparison. -/
structure Queue (lt : α → α → Except ε Bool) where
  heapify : List α → Except ε (List α)
  heappop : List α → Except ε (α × List α)
  heappush : List α → α → Except ε (List α)
  /-- The arrangement the operations rely on. -/
  Arranged : List α → Prop
  heapify_spec : ∀ entries, Comparable lt entries →
    ∃ heap, heapify entries = .ok heap ∧ heap.Perm entries ∧ Arranged heap
  heappop_spec : ∀ heap, Arranged heap → Comparable lt heap → heap ≠ [] →
    ∃ least rest, heappop heap = .ok (least, rest) ∧ heap.Perm (least :: rest) ∧ Arranged rest ∧
      ∀ entry ∈ rest, lt entry least = .ok false
  heappush_spec : ∀ heap entry, Arranged heap → Comparable lt (entry :: heap) →
    ∃ heap', heappush heap entry = .ok heap' ∧ heap'.Perm (entry :: heap) ∧ Arranged heap'

section Comparison

variable {lt : α → α → Except ε Bool}

theorem Comparable.perm {entries entries' : List α} (h : Comparable lt entries)
    (hsame : entries.Perm entries') : Comparable lt entries' := by
  apply (hsame.pairwise_iff ?_).mp h
  intro a b hab
  exact hab.symm

theorem Comparable.of_cons {entry : α} {entries : List α} (h : Comparable lt (entry :: entries)) :
    Comparable lt entries := List.Pairwise.of_cons h

/-- An entry that no other is less than is below every other. -/
theorem Comparable.least_below {least : α} {rest : List α} (h : Comparable lt (least :: rest))
    (hleast : ∀ entry ∈ rest, lt entry least = .ok false) : ∀ entry ∈ rest, Below lt least entry := by
  intro entry hentry
  rcases List.rel_of_pairwise_cons h hentry with hbelow | hbelow
  · exact hbelow
  · have hnot := hleast entry hentry
    rw [hbelow.1] at hnot
    cases hnot

/-- What comes off the top of a list of comparable entries depends on the entries alone. -/
theorem least_unique {least least' : α} {rest rest' : List α} (h : Comparable lt (least :: rest))
    (hsame : (least :: rest).Perm (least' :: rest')) (hleast : ∀ entry ∈ rest, lt entry least = .ok false)
    (hleast' : ∀ entry ∈ rest', lt entry least' = .ok false) : least = least' ∧ rest.Perm rest' := by
  have hbelow := h.least_below hleast
  have hbelow' := (h.perm hsame).least_below hleast'
  have heq : least = least' := by
    rcases List.mem_cons.mp (hsame.subset List.mem_cons_self) with heq | hmem
    · exact heq
    · rcases List.mem_cons.mp (hsame.symm.subset List.mem_cons_self) with heq | hmem'
      · exact heq.symm
      · -- each of the two would be below the other
        have hone := (hbelow least' hmem').1
        rw [(hbelow' least hmem).2] at hone
        cases hone
  subst heq
  exact ⟨rfl, List.perm_cons least |>.mp hsame⟩

end Comparison

/-! ### Merging two entries until one is left -/

section Merging

variable {lt : α → α → Except ε Bool} (merge : α → α → α)

/-- `rounds` rounds of the loop `while len(heap) > 1`: the merge of the two entries popped is pushed. -/
def Queue.mergeRounds (queue : Queue lt) : Nat → List α → Except ε (List α)
  | rounds + 1, a :: b :: heap => do
      let (first, heap) ← queue.heappop (a :: b :: heap)
      let (second, heap) ← queue.heappop heap
      let heap ← queue.heappush heap (merge first second)
      mergeRounds queue rounds heap
  | _, heap => .ok heap

/-- The heaps at the head of the loop, from the entries the queue is made of. -/
inductive Queue.Visited (queue : Queue lt) (entries : List α) : List α → Prop where
  | start {heap : List α} (made : queue.heapify entries = .ok heap) : Visited queue entries heap
  | round {heap heap₁ heap₂ heap₃ : List α} {first second : α} (before : Visited queue entries heap)
      (several : 1 < heap.length) (pop₁ : queue.heappop heap = .ok (first, heap₁))
      (pop₂ : queue.heappop heap₁ = .ok (second, heap₂))
      (push : queue.heappush heap₂ (merge first second) = .ok heap₃) : Visited queue entries heap₃

/-- An invariant of the loop under which no comparison fails: it depends on the entries alone and is kept by a
merge. -/
structure Invariant (lt : α → α → Except ε Bool) (Good : List α → Prop) : Prop where
  comparable : ∀ {entries}, Good entries → Comparable lt entries
  perm : ∀ {entries entries'}, entries.Perm entries' → Good entries → Good entries'
  merged : ∀ {first second rest}, Good (first :: second :: rest) → Good (merge first second :: rest)

variable {merge} {Good : List α → Prop}

/-- One round on comparable entries: which entries are popped is settled by the entries, and the heap that is
left holds the others and the merge. -/
theorem Invariant.round (hgood : Invariant merge lt Good) (queue : Queue lt) {heap : List α}
    (harranged : queue.Arranged heap) (h : Good heap) (hseveral : 1 < heap.length) :
    ∃ first second heap₁ heap₂ heap₃, queue.heappop heap = .ok (first, heap₁) ∧
      queue.heappop heap₁ = .ok (second, heap₂) ∧ queue.heappush heap₂ (merge first second) = .ok heap₃ ∧
      heap.Perm (first :: second :: heap₂) ∧ heap₃.Perm (merge first second :: heap₂) ∧
      queue.Arranged heap₃ ∧ Good heap₃ ∧ (∀ entry ∈ second :: heap₂, lt entry first = .ok false) ∧
      ∀ entry ∈ heap₂, lt entry second = .ok false := by
  have hne : heap ≠ [] := List.ne_nil_of_length_pos (by omega)
  obtain ⟨first, heap₁, hpop₁, hperm₁, harranged₁, hfirst⟩ :=
    queue.heappop_spec heap harranged (hgood.comparable h) hne
  have hcomparable₁ : Comparable lt heap₁ := ((hgood.comparable h).perm hperm₁).of_cons
  have hne₁ : heap₁ ≠ [] := by
    apply List.ne_nil_of_length_pos
    have := hperm₁.length_eq
    simp only [List.length_cons] at this
    omega
  obtain ⟨second, heap₂, hpop₂, hperm₂, harranged₂, hsecond⟩ :=
    queue.heappop_spec heap₁ harranged₁ hcomparable₁ hne₁
  have hperm : heap.Perm (first :: second :: heap₂) := hperm₁.trans (hperm₂.cons first)
  have hmerged : Good (merge first second :: heap₂) := hgood.merged (hgood.perm hperm h)
  obtain ⟨heap₃, hpush, hperm₃, harranged₃⟩ :=
    queue.heappush_spec heap₂ (merge first second) harranged₂ (hgood.comparable hmerged)
  refine ⟨first, second, heap₁, heap₂, heap₃, hpop₁, hpop₂, hpush, hperm, hperm₃, harranged₃,
    hgood.perm hperm₃.symm hmerged, ?_, hsecond⟩
  intro entry hentry
  exact hfirst entry (hperm₂.symm.subset hentry)

/-- The invariant holds whenever the loop is at its head. -/
theorem Queue.Visited.holds (hgood : Invariant merge lt Good) {queue : Queue lt} {entries heap : List α}
    (hentries : Good entries) (h : queue.Visited merge entries heap) : queue.Arranged heap ∧ Good heap := by
  induction h with
  | start made =>
      obtain ⟨heap', hmade, hperm, harranged⟩ := queue.heapify_spec entries (hgood.comparable hentries)
      rw [made] at hmade
      cases hmade
      exact ⟨harranged, hgood.perm hperm.symm hentries⟩
  | round _ several pop₁ pop₂ push ih =>
      obtain ⟨_, _, _, _, _, hpop₁, hpop₂, hpush, _, _, harranged, hheap, _⟩ :=
        hgood.round queue ih.1 ih.2 several
      rw [pop₁] at hpop₁
      cases hpop₁
      rw [pop₂] at hpop₂
      cases hpop₂
      rw [push] at hpush
      cases hpush
      exact ⟨harranged, hheap⟩

/-- A round that runs goes on with the heap it leaves. -/
theorem Queue.mergeRounds_succ {queue : Queue lt} {rounds : Nat} {heap heap₁ heap₂ heap₃ : List α}
    {first second : α} (several : 1 < heap.length) (pop₁ : queue.heappop heap = .ok (first, heap₁))
    (pop₂ : queue.heappop heap₁ = .ok (second, heap₂))
    (push : queue.heappush heap₂ (merge first second) = .ok heap₃) :
    queue.mergeRounds merge (rounds + 1) heap = queue.mergeRounds merge rounds heap₃ := by
  rcases heap with _ | ⟨a, _ | ⟨b, heap⟩⟩
  · cases several
  · simp at several
  · rw [mergeRounds, pop₁]
    show (queue.heappop heap₁ >>= fun popped => _) = _
    rw [pop₂]
    show (queue.heappush heap₂ (merge first second) >>= fun heap => _) = _
    rw [push]
    rfl

theorem Queue.mergeRounds_of_length {queue : Queue lt} (rounds : Nat) {heap : List α}
    (h : heap.length ≤ 1) : queue.mergeRounds merge rounds heap = .ok heap := by
  rcases heap with _ | ⟨a, _ | ⟨b, heap⟩⟩
  · cases rounds <;> rfl
  · cases rounds <;> rfl
  · simp at h

/-- What the loop leaves is a heap it has at its head. -/
theorem Queue.Visited.mergeRounds (hgood : Invariant merge lt Good) {queue : Queue lt}
    {entries heap last : List α} (hentries : Good entries) (h : queue.Visited merge entries heap)
    {rounds : Nat} (hrun : queue.mergeRounds merge rounds heap = .ok last) :
    queue.Visited merge entries last := by
  induction rounds generalizing heap with
  | zero =>
      have hzero : queue.mergeRounds merge 0 heap = .ok heap := rfl
      rw [hzero] at hrun
      cases hrun
      exact h
  | succ rounds ih =>
      by_cases hseveral : 1 < heap.length
      · obtain ⟨harranged, hheap⟩ := h.holds hgood hentries
        obtain ⟨_, _, _, _, _, hpop₁, hpop₂, hpush, _⟩ := hgood.round queue harranged hheap hseveral
        rw [Queue.mergeRounds_succ hseveral hpop₁ hpop₂ hpush] at hrun
        exact ih (.round h hseveral hpop₁ hpop₂ hpush) hrun
      · rw [Queue.mergeRounds_of_length _ (Nat.not_lt.mp hseveral)] at hrun
        cases hrun
        exact h

/-- Two queues that hold the same entries, in whatever arrangement, run the loop to the same entries, and no
comparison fails on the way. -/
theorem mergeRounds_agree (hgood : Invariant merge lt Good) (queue queue' : Queue lt) (rounds : Nat)
    {heap heap' : List α} (harranged : queue.Arranged heap) (harranged' : queue'.Arranged heap')
    (h : Good heap) (hsame : heap.Perm heap') :
    ∃ last last', queue.mergeRounds merge rounds heap = .ok last ∧
      queue'.mergeRounds merge rounds heap' = .ok last' ∧ last.Perm last' ∧ Good last ∧
      (heap ≠ [] → heap.length ≤ rounds + 1 → last.length = 1) := by
  induction rounds generalizing heap heap' with
  | zero =>
      have hnone : ∀ (queue : Queue lt) (heap : List α), queue.mergeRounds merge 0 heap = .ok heap :=
        fun _ _ => rfl
      refine ⟨heap, heap', hnone queue heap, hnone queue' heap', hsame, h, ?_⟩
      intro hne hle
      have := List.length_pos_of_ne_nil hne
      omega
  | succ rounds ih =>
      by_cases hseveral : 1 < heap.length
      · have hseveral' : 1 < heap'.length := hsame.length_eq ▸ hseveral
        obtain ⟨first, second, heap₁, heap₂, heap₃, hpop₁, hpop₂, hpush, hperm, hperm₃, hnext, hgood₃, hfirst,
          hsecond⟩ := hgood.round queue harranged h hseveral
        obtain ⟨first', second', heap₁', heap₂', heap₃', hpop₁', hpop₂', hpush', hperm', hperm₃', hnext', _,
          hfirst', hsecond'⟩ := hgood.round queue' harranged' (hgood.perm hsame h) hseveral'
        have hcomparable : Comparable lt (first :: second :: heap₂) := (hgood.comparable h).perm hperm
        obtain ⟨rfl, hrest⟩ := least_unique hcomparable ((hperm.symm.trans hsame).trans hperm') hfirst hfirst'
        obtain ⟨rfl, hothers⟩ := least_unique hcomparable.of_cons hrest hsecond hsecond'
        have hsame₃ : heap₃.Perm heap₃' := (hperm₃.trans (hothers.cons _)).trans hperm₃'.symm
        obtain ⟨last, last', hrun, hrun', hlast, hgoodLast, hone⟩ := ih hnext hnext' hgood₃ hsame₃
        rw [Queue.mergeRounds_succ hseveral hpop₁ hpop₂ hpush,
          Queue.mergeRounds_succ hseveral' hpop₁' hpop₂' hpush']
        refine ⟨last, last', hrun, hrun', hlast, hgoodLast, ?_⟩
        intro _ hle
        have hlength := hperm.length_eq
        have hlength₃ := hperm₃.length_eq
        simp only [List.length_cons] at hlength hlength₃
        apply hone
        · apply List.ne_nil_of_length_pos
          omega
        · omega
      · have hfew : heap.length ≤ 1 := Nat.not_lt.mp hseveral
        rw [Queue.mergeRounds_of_length _ hfew, Queue.mergeRounds_of_length _ (hsame.length_eq ▸ hfew)]
        refine ⟨heap, heap', rfl, rfl, hsame, h, ?_⟩
        intro hne _
        have := List.length_pos_of_ne_nil hne
        omega

end Merging

end PriorityQueue

end Priestly
