/-
Module: Priestly.Proofs.HuffmanTree
Layer: Proofs
Purpose: The Huffman tree depends only on the frequency map: not on the order in which the map was filled, and
  not on how `heapq` arranges its entries. The subtrees in the heap never share a symbol and each entry
  carries the smallest of its own, so two entries never tie and the nodes are never compared.
Imports: Priestly.Lib.PriorityQueue, Priestly.Proofs.HuffmanOptimality
Trusted boundary: `heapq` pops a minimum of the tuples it holds
Main exports: Distinct, distinct_invariant, sortedQueue, buildTreeWith_sortedQueue, tree_of_frequencies
-/
import Priestly.Lib.PriorityQueue
import Priestly.Proofs.HuffmanOptimality

namespace Priestly.Huffman

open PriorityQueue

/-! ### The invariant of the merge loop -/

/-- Each entry carries the smallest symbol of its subtree. -/
def HeapEntry.Labelled (entry : HeapEntry) : Prop :=
  entry.minSymbol ∈ entry.node.symbols ∧ ∀ symbol ∈ entry.node.symbols, entry.minSymbol ≤ symbol

/-- No symbol is under two entries, or twice under one, and the entries are labelled. -/
structure Distinct (heap : List HeapEntry) : Prop where
  nodup : (heapSymbols heap).Nodup
  labelled : ∀ entry ∈ heap, entry.Labelled

/-- Two entries that differ in what the tuples are compared by first. -/
def HeapEntry.Apart (a b : HeapEntry) : Prop :=
  a.node.symbols.Disjoint b.node.symbols ∧ a.minSymbol ≠ b.minSymbol

theorem HeapEntry.Labelled.merge {a b : HeapEntry} (ha : a.Labelled) (hb : b.Labelled) :
    (a.merge b).Labelled := by
  have hsymbols : (a.merge b).node.symbols = a.node.symbols ++ b.node.symbols := rfl
  constructor
  · rw [hsymbols, List.mem_append]
    have hmin : (a.merge b).minSymbol = a.minSymbol ∨ (a.merge b).minSymbol = b.minSymbol := Std.min_eq_or
    rcases hmin with hmin | hmin
    · left
      rw [hmin]
      exact ha.1
    · right
      rw [hmin]
      exact hb.1
  · intro symbol hsymbol
    rw [hsymbols, List.mem_append] at hsymbol
    rcases hsymbol with hsymbol | hsymbol
    · exact UInt8.le_trans Std.min_le_left (ha.2 symbol hsymbol)
    · exact UInt8.le_trans Std.min_le_right (hb.2 symbol hsymbol)

theorem Distinct.perm {heap heap' : List HeapEntry} (hsame : heap.Perm heap') (h : Distinct heap) :
    Distinct heap' where
  nodup := (heapSymbols_perm hsame).nodup_iff.mp h.nodup
  labelled := fun entry hentry => h.labelled entry (hsame.symm.subset hentry)

/-- A merge puts the symbols of two entries under one. -/
theorem Distinct.merged {first second : HeapEntry} {rest : List HeapEntry}
    (h : Distinct (first :: second :: rest)) : Distinct (first.merge second :: rest) where
  nodup := by
    have hsymbols : heapSymbols (first.merge second :: rest) = heapSymbols (first :: second :: rest) := by
      simp [heapSymbols, HeapEntry.merge, PrefixTree.symbols]
    rw [hsymbols]
    exact h.nodup
  labelled := by
    intro entry hentry
    rcases List.mem_cons.mp hentry with rfl | hentry
    · apply HeapEntry.Labelled.merge
      · exact h.labelled first List.mem_cons_self
      · exact h.labelled second (List.mem_cons_of_mem _ List.mem_cons_self)
    · exact h.labelled entry (List.mem_cons_of_mem _ (List.mem_cons_of_mem _ hentry))

/-- The entries of a heap are apart, since each smallest symbol is a symbol. -/
theorem Distinct.apart {heap : List HeapEntry} (h : Distinct heap) : heap.Pairwise HeapEntry.Apart := by
  obtain ⟨_, hdisjoint⟩ := List.nodup_flatMap.mp h.nodup
  apply hdisjoint.imp_of_mem
  intro a b ha hb hab
  refine ⟨hab, ?_⟩
  intro heq
  have hmem := (h.labelled b hb).1
  rw [← heq] at hmem
  exact hab (h.labelled a ha).1 hmem

/-- A smaller frequency settles the comparison. -/
theorem HeapEntry.below_of_freq {a b : HeapEntry} (h : a.freq < b.freq) :
    PriorityQueue.Below HeapEntry.lt a b := by
  constructor
  · simp [HeapEntry.lt, h.ne, h]
  · simp [HeapEntry.lt, h.ne', h.le]

/-- So does a smaller symbol between equal frequencies. -/
theorem HeapEntry.below_of_symbol {a b : HeapEntry} (heq : a.freq = b.freq)
    (h : a.minSymbol < b.minSymbol) : PriorityQueue.Below HeapEntry.lt a b := by
  have hne : a.minSymbol ≠ b.minSymbol := UInt8.ne_of_lt h
  have hnot : ¬b.minSymbol < a.minSymbol := UInt8.lt_asymm h
  constructor
  · simp [HeapEntry.lt, heq, hne, h]
  · simp [HeapEntry.lt, heq, hne.symm, hnot]

/-- Tuples of entries with different smallest symbols are told apart before the nodes. -/
theorem HeapEntry.below_or_below {a b : HeapEntry} (h : a.minSymbol ≠ b.minSymbol) :
    PriorityQueue.Below HeapEntry.lt a b ∨ PriorityQueue.Below HeapEntry.lt b a := by
  rcases lt_trichotomy a.freq b.freq with hlt | heq | hgt
  · exact .inl (below_of_freq hlt)
  · rcases UInt8.lt_or_lt_of_ne h with hlt | hgt
    · exact .inl (below_of_symbol heq hlt)
    · exact .inr (below_of_symbol heq.symm hgt)
  · exact .inr (below_of_freq hgt)

/-- The order the entries are sorted by is the order of the tuples. -/
theorem HeapEntry.Le.lt_eq_false {a b : HeapEntry} (h : a.Le b)
    (hcomparable : PriorityQueue.Below HeapEntry.lt a b ∨ PriorityQueue.Below HeapEntry.lt b a) :
    b.lt a = .ok false := by
  rcases hcomparable with hbelow | hbelow
  · exact hbelow.2
  · have htrue := hbelow.1
    rcases h with hlt | ⟨heq, hle⟩
    · rw [(below_of_freq hlt).2]
    · have hnot : ¬b.minSymbol < a.minSymbol := UInt8.not_lt.mpr hle
      simp only at heq
      by_cases hsymbol : b.minSymbol = a.minSymbol
      · simp [HeapEntry.lt, heq.symm, hsymbol] at htrue
      · simp [HeapEntry.lt, heq.symm, hsymbol, hnot] at htrue

/-- The loop keeps the entries distinct, and distinct entries can be compared. -/
theorem distinct_invariant : Invariant HeapEntry.merge HeapEntry.lt Distinct where
  comparable := fun h => h.apart.imp fun hapart => HeapEntry.below_or_below hapart.2
  perm := Distinct.perm
  merged := Distinct.merged

theorem heapSymbols_leafEntries (freq : Freq) : heapSymbols (leafEntries freq) = freq.map Prod.fst := by
  rw [heapSymbols, leafEntries, List.flatMap_map, List.map_eq_flatMap]
  rfl

/-- The leaves of a map are distinct. -/
theorem distinct_leafEntries {freq : Freq} (h : (freq.map Prod.fst).Nodup) : Distinct (leafEntries freq) where
  nodup := by
    rw [heapSymbols_leafEntries]
    exact h
  labelled := by
    intro entry hentry
    obtain ⟨pair, _, rfl⟩ := List.mem_map.mp hentry
    simp [HeapEntry.Labelled, PrefixTree.symbols]

/-! ### A queue kept sorted -/

/-- The list kept in the order of its entries is a priority queue for the tuples. -/
def sortedQueue : Queue HeapEntry.lt where
  heapify entries := .ok (entries.insertionSort HeapEntry.Le)
  heappop
    | [] => .error (.indexError "index out of range")
    | entry :: heap => .ok (entry, heap)
  heappush heap entry := .ok (heappush heap entry)
  Arranged heap := heap.Pairwise HeapEntry.Le
  heapify_spec entries _ :=
    ⟨_, rfl, List.perm_insertionSort _ _, List.pairwise_insertionSort _ _⟩
  heappop_spec := by
    rintro (_ | ⟨least, rest⟩) harranged hcomparable hne
    · exact absurd rfl hne
    · refine ⟨least, rest, rfl, List.Perm.refl _, harranged.of_cons, ?_⟩
      intro entry hentry
      have hle : least.Le entry := List.rel_of_pairwise_cons harranged hentry
      exact hle.lt_eq_false (List.rel_of_pairwise_cons hcomparable hentry)
  heappush_spec heap entry harranged _ :=
    ⟨_, rfl, heappush_perm heap entry, heappush_sorted harranged entry⟩

theorem insertionSort_leafEntries (freq : Freq) :
    (leafEntries freq).insertionSort HeapEntry.Le = heapify freq := by
  rw [heapify, leafEntries]
  exact (List.map_insertionSort KeyLe HeapEntry.Le _ _ fun _ _ _ _ => Iff.rfl).symm

theorem mergeRounds_sortedQueue (rounds : Nat) (heap : List HeapEntry) :
    sortedQueue.mergeRounds HeapEntry.merge rounds heap = .ok (mergeLoop rounds heap) := by
  induction rounds generalizing heap with
  | zero => rfl
  | succ rounds ih =>
      rcases heap with _ | ⟨a, _ | ⟨b, heap⟩⟩
      · rfl
      · rfl
      · exact ih (heappush heap (a.merge b))

/-- `buildTree` is the tree that a sorted list builds. -/
theorem buildTreeWith_sortedQueue (freq : Freq) : buildTreeWith sortedQueue freq = buildTree freq := by
  have hheap : sortedQueue.heapify (leafEntries freq) = .ok (heapify freq) :=
    congrArg Except.ok (insertionSort_leafEntries freq)
  rw [buildTreeWith, hheap, Priestly.ok_bind, mergeRounds_sortedQueue]
  rfl

/-! ### One tree for one map -/

/-- Whatever queue runs the loop and in whatever order the map was filled, the last entry is the same. -/
theorem buildTreeWith_agree {freq freq' : Freq} (hne : freq ≠ []) (hkeys : (freq.map Prod.fst).Nodup)
    (hsame : freq.Perm freq') (heapq heapq' : Queue HeapEntry.lt) :
    ∃ entry, heapq.Visited HeapEntry.merge (leafEntries freq) [entry] ∧
      buildTreeWith heapq freq = .ok entry.node ∧ buildTreeWith heapq' freq' = .ok entry.node := by
  have hdistinct : Distinct (leafEntries freq) := distinct_leafEntries hkeys
  have hleaves : (leafEntries freq).Perm (leafEntries freq') := hsame.map _
  obtain ⟨heap, hheap, hperm, harranged⟩ :=
    heapq.heapify_spec (leafEntries freq) (distinct_invariant.comparable hdistinct)
  obtain ⟨heap', hheap', hperm', harranged'⟩ :=
    heapq'.heapify_spec (leafEntries freq') (distinct_invariant.comparable (hdistinct.perm hleaves))
  obtain ⟨last, last', hrun, hrun', hlast, _, hone⟩ :=
    mergeRounds_agree distinct_invariant heapq heapq' freq.length harranged harranged'
      (hdistinct.perm hperm.symm) ((hperm.trans hleaves).trans hperm'.symm)
  have hlength : heap.length = freq.length := by
    rw [hperm.length_eq, leafEntries, List.length_map]
  have hsingle : last.length = 1 := by
    apply hone
    · apply List.ne_nil_of_length_pos
      rw [hlength]
      exact List.length_pos_of_ne_nil hne
    · omega
  obtain ⟨entry, rfl⟩ := List.length_eq_one_iff.mp hsingle
  obtain rfl : last' = [entry] := List.singleton_perm.mp hlast |>.symm
  refine ⟨entry, (Queue.Visited.start hheap).mergeRounds distinct_invariant hdistinct hrun, ?_, ?_⟩
  · rw [buildTreeWith, hheap, Priestly.ok_bind, hrun]
    rfl
  · rw [buildTreeWith, hheap', Priestly.ok_bind, ← hsame.length_eq, hrun']
    rfl

/-- The tree depends only on the frequency map: two orders of insertion, and any two queues that pop a minimum
of the tuples they hold, end with the same tree, whose leaves are the symbols of the map, each once. At every
iteration the subtrees of the heap share no symbol, their smallest symbols are the ones the entries carry and
are pairwise different, so no two entries tie and every comparison answers without coming to the nodes. -/
theorem tree_of_frequencies {freq freq' : Freq} (hne : freq ≠ []) (hkeys : (freq.map Prod.fst).Nodup)
    (hsame : freq.Perm freq') (heapq heapq' : Queue HeapEntry.lt) :
    (∃ entry, heapq.Visited HeapEntry.merge (leafEntries freq) [entry] ∧
      buildTreeWith heapq freq = .ok entry.node ∧ buildTreeWith heapq' freq' = .ok entry.node ∧
      buildTree freq = .ok entry.node ∧ buildTree freq' = .ok entry.node ∧
      entry.node.symbols.Perm (freq.map Prod.fst) ∧ entry.node.symbols.Nodup) ∧
    ∀ heap, heapq.Visited HeapEntry.merge (leafEntries freq) heap →
      (∀ entry ∈ heap, entry.minSymbol ∈ entry.node.symbols ∧
        ∀ symbol ∈ entry.node.symbols, entry.minSymbol ≤ symbol) ∧
      heap.Pairwise fun a b =>
        a.node.symbols.Disjoint b.node.symbols ∧ a.minSymbol ≠ b.minSymbol ∧
          (a.freq, a.minSymbol) ≠ (b.freq, b.minSymbol) ∧
          (∃ answer, a.lt b = .ok answer) ∧ ∃ answer, b.lt a = .ok answer := by
  constructor
  · obtain ⟨entry, hvisited, htree, htree'⟩ := buildTreeWith_agree hne hkeys hsame heapq heapq'
    obtain ⟨_, _, hagain, hsorted⟩ := buildTreeWith_agree hne hkeys hsame heapq sortedQueue
    have hsorted' : buildTree freq' = .ok entry.node := by
      rw [← buildTreeWith_sortedQueue, hsorted, ← hagain, htree]
    have hsortedFreq : buildTree freq = .ok entry.node := by
      rw [buildTree_perm hsame, hsorted']
    obtain ⟨tree, hbuilt, hsymbols⟩ := buildTree_symbols hne
    rw [hsortedFreq] at hbuilt
    cases hbuilt
    exact ⟨entry, hvisited, htree, htree', hsortedFreq, hsorted', hsymbols, hsymbols.nodup_iff.mpr hkeys⟩
  · intro heap hvisited
    have hdistinct : Distinct heap := (hvisited.holds distinct_invariant (distinct_leafEntries hkeys)).2
    refine ⟨hdistinct.labelled, ?_⟩
    apply hdistinct.apart.imp
    rintro a b ⟨hdisjoint, hsymbol⟩
    have hne : (a.freq, a.minSymbol) ≠ (b.freq, b.minSymbol) := by
      intro heq
      exact hsymbol (Prod.mk.inj heq).2
    refine ⟨hdisjoint, hsymbol, hne, ?_⟩
    rcases HeapEntry.below_or_below hsymbol with hbelow | hbelow
    · exact ⟨⟨true, hbelow.1⟩, false, hbelow.2⟩
    · exact ⟨⟨false, hbelow.2⟩, true, hbelow.1⟩

/-- Three symbols that all have frequency zero, inserted in two orders. -/
theorem tree_of_frequencies_ties :
    ∃ tree, buildTree [(99, 0), (97, 0), (98, 0)] = .ok tree ∧
      buildTreeWith sortedQueue [(97, 0), (98, 0), (99, 0)] = .ok tree ∧ tree.symbols.Nodup := by
  obtain ⟨⟨entry, _, _, hwith, hbuilt, _, _, hnodup⟩, _⟩ :=
    @tree_of_frequencies [(99, 0), (97, 0), (98, 0)] [(97, 0), (98, 0), (99, 0)] (by decide) (by decide)
      (by decide) sortedQueue sortedQueue
  exact ⟨entry.node, hbuilt, hwith, hnodup⟩

end Priestly.Huffman
