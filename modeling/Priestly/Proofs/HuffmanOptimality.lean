/-
Module: Priestly.Proofs.HuffmanOptimality
Layer: Proofs
Purpose: No prefix-free code for the symbols of the data is shorter than the codes the compressor assigns.
  The heap loop merges the two least frequencies in every round, whatever way ties are broken, and
  weighted lengths that satisfy the inequality of Kraft cost no less than such merges add up to.
Imports: Priestly.Lib.MinimalCost, Priestly.Proofs.Huffman
Trusted boundary: none
Main exports: PrefixFreeOn, codeCost, mergeLoop_cost, buildTree_cost, mergeCost_le_codeCost, compress_optimal
-/
import Priestly.Lib.MinimalCost
import Priestly.Proofs.Huffman

namespace Priestly.Huffman

open ByteCodec MinimalCost

/-! ### The merges of the heap loop -/

instance : Std.Total HeapEntry.Le := ⟨fun _ _ => keyLe_total _ _⟩

instance : IsTrans HeapEntry HeapEntry.Le := ⟨fun _ _ _ => keyLe_trans⟩

/-- The frequency of an entry is the weight of its tree. -/
def HeapEntry.Weighs (weightOf : UInt8 → Nat) (entry : HeapEntry) : Prop :=
  entry.freq = entry.node.weight weightOf

theorem HeapEntry.Weighs.merge {weightOf : UInt8 → Nat} {a b : HeapEntry} (ha : a.Weighs weightOf)
    (hb : b.Weighs weightOf) : (a.merge b).Weighs weightOf := by
  rw [Weighs] at *
  rw [HeapEntry.merge, PrefixTree.weight_branch, ha, hb]

/-- The entries of a heap come with their frequencies sorted, whatever way ties are broken. -/
theorem freqs_sorted {heap : List HeapEntry} (h : heap.Pairwise HeapEntry.Le) :
    (heap.map HeapEntry.freq).Pairwise (· ≤ ·) := by
  rw [List.pairwise_map]
  apply h.imp
  intro first second hle
  rcases hle with hlt | ⟨heq, _⟩
  · exact Nat.le_of_lt hlt
  · exact Nat.le_of_eq heq

theorem heappush_sorted {heap : List HeapEntry} (h : heap.Pairwise HeapEntry.Le) (entry : HeapEntry) :
    (heappush heap entry).Pairwise HeapEntry.Le := h.orderedInsert entry heap

/-- Pushing an entry inserts its frequency where it belongs. -/
theorem map_freq_heappush {heap : List HeapEntry} (h : heap.Pairwise HeapEntry.Le) (entry : HeapEntry) :
    (heappush heap entry).map HeapEntry.freq =
      (heap.map HeapEntry.freq).orderedInsert (· ≤ ·) entry.freq := by
  apply List.Perm.eq_of_pairwise' (freqs_sorted (heappush_sorted h entry))
    ((freqs_sorted h).orderedInsert entry.freq _)
  apply ((heappush_perm heap entry).map HeapEntry.freq).trans
  exact (List.perm_orderedInsert _ entry.freq _).symm

/-- What the trees of a heap cost. -/
def heapCost (weightOf : UInt8 → Nat) (heap : List HeapEntry) : Nat :=
  (heap.map fun entry => entry.node.pathCost weightOf).sum

theorem heapCost_perm (weightOf : UInt8 → Nat) {heap heap' : List HeapEntry} (h : heap.Perm heap') :
    heapCost weightOf heap = heapCost weightOf heap' := (h.map _).sum_eq

/-- One round adds the two least frequencies to what the trees cost. -/
theorem heapCost_merge {weightOf : UInt8 → Nat} {a b : HeapEntry} (ha : a.Weighs weightOf)
    (hb : b.Weighs weightOf) (heap : List HeapEntry) :
    heapCost weightOf (heappush heap (a.merge b)) =
      heapCost weightOf (a :: b :: heap) + (a.freq + b.freq) := by
  have hmerge : (a.merge b).freq = (a.merge b).node.weight weightOf := ha.merge hb
  rw [heapCost_perm weightOf (heappush_perm heap (a.merge b))]
  simp only [HeapEntry.merge] at hmerge
  simp only [heapCost, List.map_cons, List.sum_cons, HeapEntry.merge, PrefixTree.pathCost_branch, ← hmerge]
  omega

/-- The loop adds to what the trees cost exactly what merging the frequencies adds up to. -/
theorem mergeLoop_cost {weightOf : UInt8 → Nat} (rounds : Nat) {heap : List HeapEntry}
    (hsorted : heap.Pairwise HeapEntry.Le) (hweighs : ∀ entry ∈ heap, entry.Weighs weightOf) :
    heapCost weightOf (mergeLoop rounds heap) =
      heapCost weightOf heap + mergeCost rounds (heap.map HeapEntry.freq) := by
  induction rounds generalizing heap with
  | zero =>
      rcases heap with _ | ⟨a, _ | ⟨b, heap⟩⟩
      · rfl
      · rfl
      · rfl
  | succ rounds ih =>
      rcases heap with _ | ⟨a, _ | ⟨b, heap⟩⟩
      · rfl
      · rfl
      · have ha := hweighs a List.mem_cons_self
        have hb := hweighs b (List.mem_cons_of_mem _ List.mem_cons_self)
        have hrest : heap.Pairwise HeapEntry.Le := hsorted.of_cons.of_cons
        have hpush : ∀ entry ∈ heappush heap (a.merge b), entry.Weighs weightOf := by
          intro entry hentry
          rcases List.mem_cons.mp ((heappush_perm heap (a.merge b)).mem_iff.mp hentry) with rfl | hentry
          · exact ha.merge hb
          · exact hweighs entry (List.mem_cons_of_mem _ (List.mem_cons_of_mem _ hentry))
        rw [mergeLoop, ih (heappush_sorted hrest _) hpush, heapCost_merge ha hb, map_freq_heappush hrest]
        simp only [List.map_cons, mergeCost, HeapEntry.merge]
        omega

theorem heapify_sorted (freq : Freq) : (heapify freq).Pairwise HeapEntry.Le := by
  rw [heapify, List.pairwise_map]
  exact List.pairwise_insertionSort KeyLe freq

/-- The frequencies of the heap are those of the map. -/
theorem map_freq_heapify_perm (freq : Freq) :
    ((heapify freq).map HeapEntry.freq).Perm (freq.map Prod.snd) := by
  rw [heapify, List.map_map]
  exact (List.perm_insertionSort KeyLe freq).map Prod.snd

/-- Leaves weigh what their symbols weigh and cost nothing. -/
theorem heapify_leaves {weightOf : UInt8 → Nat} {freq : Freq}
    (h : ∀ entry ∈ freq, entry.2 = weightOf entry.1) :
    (∀ entry ∈ heapify freq, entry.Weighs weightOf) ∧ heapCost weightOf (heapify freq) = 0 := by
  constructor
  · intro entry hentry
    obtain ⟨pair, hpair, rfl⟩ := List.mem_map.mp hentry
    have hfreq := h pair ((List.perm_insertionSort KeyLe freq).mem_iff.mp hpair)
    simpa [HeapEntry.Weighs, PrefixTree.weight, PrefixTree.symbols] using hfreq
  · apply List.sum_eq_zero
    intro term hterm
    obtain ⟨entry, hentry, rfl⟩ := List.mem_map.mp hterm
    obtain ⟨pair, _, rfl⟩ := List.mem_map.mp hentry
    simp [PrefixTree.pathCost, PrefixTree.paths]

/-- The tree costs what merging the sorted frequencies adds up to. -/
theorem buildTree_cost {weightOf : UInt8 → Nat} {freq : Freq}
    (hweights : ∀ entry ∈ freq, entry.2 = weightOf entry.1) {tree : Node} (h : buildTree freq = .ok tree) :
    tree.pathCost weightOf = mergeCost freq.length ((heapify freq).map HeapEntry.freq) := by
  obtain ⟨hweighs, hzero⟩ := heapify_leaves hweights
  have hcost := mergeLoop_cost freq.length (heapify_sorted freq) hweighs
  have hne : heapify freq ≠ [] := by
    intro hnil
    rw [buildTree, hnil] at h
    cases hrounds : freq.length <;> simp [hrounds, mergeLoop] at h
  have hone := (mergeLoop_spec freq.length (heapify freq)).2 hne (by simp [heapify])
  obtain ⟨entry, hentry⟩ := List.length_eq_one_iff.mp hone
  rw [buildTree, hentry] at h
  cases h
  rw [hentry, hzero, Nat.zero_add] at hcost
  rw [← hcost]
  simp [heapCost]

/-! ### Codes for the symbols that occur -/

/-- No code of a symbol of the data begins the code of another one. -/
def PrefixFreeOn (data : Bytes) (code : UInt8 → List Bool) : Prop :=
  ∀ first ∈ data, ∀ second ∈ data, first ≠ second → ¬ code first <+: code second

/-- The sum over the symbols of frequency times the length of the code. -/
def codeCost (data : Bytes) (code : UInt8 → List Bool) : Nat :=
  ((counter data).map fun entry => entry.2 * (code entry.1).length).sum

/-- A sum over the symbols with their frequencies is a sum over the data. -/
theorem sum_counter (data : Bytes) (value : UInt8 → Nat) :
    ((counter data).map fun entry => entry.2 * value entry.1).sum = (data.map value).sum := by
  have hnodup : data.eraseDups.Nodup := map_fst_counter data ▸ nodup_counter data
  have hsame : data.eraseDups.toFinset = data.toFinset := by
    ext symbol
    rw [List.mem_toFinset, List.mem_toFinset, List.mem_eraseDups]
  rw [counter, List.map_map, Finset.sum_list_map_count data value, ← hsame, List.sum_toFinset _ hnodup]
  rfl

/-- The codes of the data, one after the other, are as long as the code costs. -/
theorem length_flatten_codes (data : Bytes) (code : UInt8 → List Bool) :
    (data.map code).flatten.length = codeCost data code := by
  rw [codeCost, sum_counter data fun symbol => (code symbol).length, List.length_flatten, List.map_map]
  rfl

/-- The lengths of a prefix-free code for at least two symbols satisfy the inequality of Kraft. -/
theorem PrefixFreeOn.kraft {data : Bytes} {code : UInt8 → List Bool} (h : PrefixFreeOn data code)
    (htwo : ∃ first ∈ data, ∃ second ∈ data, first ≠ second) :
    kraftSum ((counter data).map fun entry => (code entry.1).length) ≤ 1 := by
  have hnodup : data.eraseDups.Nodup := map_fst_counter data ▸ nodup_counter data
  have hwords : (data.eraseDups.map code).Pairwise fun first second =>
      ¬ first <+: second ∧ ¬ second <+: first := by
    rw [List.pairwise_map]
    apply hnodup.imp_of_mem
    intro first second hfirst hsecond hne
    rw [List.mem_eraseDups] at hfirst hsecond
    exact ⟨h first hfirst second hsecond hne, h second hsecond first hfirst hne.symm⟩
  have hlength : 2 ≤ (data.eraseDups.map code).length := by
    obtain ⟨first, hfirst, second, hsecond, hne⟩ := htwo
    have hsub : [first, second] ⊆ data.eraseDups := by
      intro symbol hsymbol
      rw [List.mem_eraseDups]
      rcases List.mem_pair.mp hsymbol with rfl | rfl
      · exact hfirst
      · exact hsecond
    have hpair : [first, second].Nodup := List.nodup_cons.mpr ⟨by simpa using hne, List.nodup_singleton _⟩
    rw [List.length_map]
    exact (List.subperm_of_subset hpair hsub).length_le
  have hkraft := kraft_of_prefixFree hwords hlength
  rwa [← map_fst_counter, List.map_map, List.map_map] at hkraft

/-- Merging the sorted frequencies adds up to no more than any prefix-free code costs. -/
theorem mergeCost_le_codeCost {data : Bytes} {code : UInt8 → List Bool} (h : PrefixFreeOn data code)
    (htwo : ∃ first ∈ data, ∃ second ∈ data, first ≠ second) (rounds : Nat) :
    mergeCost rounds ((heapify (counter data)).map HeapEntry.freq) ≤ codeCost data code := by
  let weighted := (counter data).map fun entry => (entry.2, (code entry.1).length)
  have hweights : (weighted.map Prod.fst).Perm ((heapify (counter data)).map HeapEntry.freq) := by
    rw [List.map_map]
    exact (map_freq_heapify_perm (counter data)).symm
  have hkraft : kraftSum (weighted.map Prod.snd) ≤ 1 := by
    rw [List.map_map]
    exact h.kraft htwo
  have hcost := mergeCost_le_cost rounds (freqs_sorted (heapify_sorted (counter data))) hweights hkraft
  rwa [cost, List.map_map] at hcost

/-- The octet itself is a code of eight bits. -/
theorem octetBits_prefixFreeOn (data : Bytes) : PrefixFreeOn data octetBits := by
  have hback : ∀ byte : Fin 256, intBase2 (octetBits (UInt8.ofNat byte)) = byte := by decide +kernel
  intro first _ second _ hne hbegins
  have hsame : octetBits first = octetBits second := hbegins.eq_of_length rfl
  have hvalue : ∀ byte : UInt8, intBase2 (octetBits byte) = byte.toNat := by
    intro byte
    have hbyte := hback ⟨byte.toNat, byte.toNat_lt⟩
    simpa only [UInt8.ofNat_toNat] using hbyte
  apply hne
  apply UInt8.toNat_inj.mp
  rw [← hvalue first, hsame, hvalue second]

/-- The code of octets costs eight bits for each octet. -/
theorem codeCost_octetBits (data : Bytes) : codeCost data octetBits = 8 * data.length := by
  rw [codeCost, sum_counter data fun symbol => (octetBits symbol).length]
  simp [octetBits, mul_comm]

/-! ### Optimality -/

/-- A map with two symbols has a tree that is not a single leaf. -/
theorem isLeaf_eq_false_of_two {data : Bytes} {tree : Node}
    (hsymbols : tree.symbols.Perm ((counter data).map Prod.fst))
    (htwo : ∃ first ∈ data, ∃ second ∈ data, first ≠ second) : tree.isLeaf = false := by
  obtain ⟨first, hfirst, second, hsecond, hne⟩ := htwo
  cases tree with
  | leaf symbol =>
      have hmem : ∀ other ∈ data, other = symbol := fun other hother =>
        List.mem_singleton.mp (hsymbols.mem_iff.mpr (mem_counter_iff.mpr hother))
      exact absurd ((hmem first hfirst).trans (hmem second hsecond).symm) hne
  | branch left right => rfl

/-- A code that follows the paths of a tree over the symbols costs what the paths cost. -/
theorem codeCost_paths {data : Bytes} {tree : Node} {code : UInt8 → List Bool}
    (hsymbols : tree.symbols.Perm ((counter data).map Prod.fst))
    (hpaths : ∀ symbol ∈ data, (symbol, code symbol) ∈ tree.paths) :
    codeCost data code = tree.pathCost data.count := by
  have hnodup : (tree.paths.map Prod.fst).Nodup := by
    rw [PrefixTree.map_fst_paths]
    exact hsymbols.nodup_iff.mpr (nodup_counter data)
  -- Each symbol has one path, so the paths are the codes.
  have hcode : ∀ entry ∈ tree.paths, code entry.1 = entry.2 := by
    intro entry hentry
    have hsymbol : entry.1 ∈ tree.symbols := by
      rw [← PrefixTree.map_fst_paths]
      exact List.mem_map_of_mem hentry
    have hmem := hpaths entry.1 (mem_counter_iff.mp (hsymbols.mem_iff.mp hsymbol))
    exact congrArg Prod.snd (List.inj_on_of_nodup_map hnodup hmem hentry rfl)
  have hcounter : codeCost data code =
      (((counter data).map Prod.fst).map fun symbol => data.count symbol * (code symbol).length).sum := by
    rw [codeCost, counter, List.map_map, List.map_map, List.map_map]
    rfl
  rw [hcounter, ← (hsymbols.map _).sum_eq, ← PrefixTree.map_fst_paths, List.map_map, PrefixTree.pathCost]
  apply congrArg List.sum
  apply List.map_congr_left
  intro entry hentry
  rw [Function.comp_apply, hcode entry hentry]

/-- The compressor's codes are optimal. For data with two symbols the code bits are what the blob holds after
its head. There are as many as the sum over the symbols of frequency times the length of the assigned code,
and no prefix-free code for the symbols of the data takes fewer: not more than eight for each octet. -/
theorem compress_optimal (data : Bytes) (htwo : ∃ first ∈ data, ∃ second ∈ data, first ≠ second) :
    ∃ (tree : Node) (bits : List Bool),
      buildTree (counter data) = .ok tree ∧ encodeBits (buildCodes tree []) data = .ok bits ∧
      (data.length < 2 ^ 32 → compress data = .ok (blobHead data ++ packBits bits)) ∧
      bits.length = ((buildCodes tree []).map fun entry => data.count entry.1 * entry.2.length).sum ∧
      (∀ code, PrefixFreeOn data code → bits.length ≤ codeCost data code) ∧
      bits.length ≤ 8 * data.length := by
  have hne : data ≠ [] := by
    obtain ⟨first, hfirst, _⟩ := htwo
    exact List.ne_nil_of_mem hfirst
  obtain ⟨tree, htree, hsymbols⟩ := buildTree_symbols (counter_ne_nil hne)
  obtain ⟨code, hbits, hpaths⟩ := exists_codes hsymbols
  have hleaf := isLeaf_eq_false_of_two hsymbols htwo
  have hlength : (data.map code).flatten.length = tree.pathCost data.count := by
    rw [length_flatten_codes, codeCost_paths hsymbols (hpaths hleaf)]
  have hfreqs : ∀ entry ∈ counter data, entry.2 = data.count entry.1 := by
    intro entry hentry
    obtain ⟨symbol, _, rfl⟩ := List.mem_map.mp hentry
    rfl
  have hoptimal : ∀ other, PrefixFreeOn data other → (data.map code).flatten.length ≤ codeCost data other := by
    intro other hother
    rw [hlength, buildTree_cost hfreqs htree]
    exact mergeCost_le_codeCost hother htwo _
  refine ⟨tree, (data.map code).flatten, htree, hbits, ?_, ?_, hoptimal, ?_⟩
  · intro hlt
    obtain ⟨_, _, htree', _, hbits', _, hok⟩ := compress_ok hne hlt
    rw [htree] at htree'
    cases htree'
    rw [hbits] at hbits'
    rw [hok, ← Except.ok.inj hbits']
    rfl
  · rw [hlength, buildCodes_root hleaf]
    rfl
  · rw [← codeCost_octetBits]
    exact hoptimal octetBits (octetBits_prefixFreeOn data)

/-- The codes of a string of two symbols against one bit for each of them. -/
theorem compress_optimal_aab : ∃ tree bits, buildTree (counter [97, 97, 98]) = .ok tree ∧
    encodeBits (buildCodes tree []) [97, 97, 98] = .ok bits ∧ bits.length ≤ 3 := by
  obtain ⟨tree, bits, htree, hbits, _, _, hoptimal, _⟩ :=
    compress_optimal [97, 97, 98] ⟨97, by decide, 98, by decide, by decide⟩
  refine ⟨tree, bits, htree, hbits, ?_⟩
  have hcode : PrefixFreeOn [97, 97, 98] fun symbol => if symbol = 97 then [false] else [true] := by
    simp [PrefixFreeOn]
  exact hoptimal _ hcode

end Priestly.Huffman
