/-
Module: Priestly.Proofs.Huffman
Layer: Proofs
Purpose: The Huffman codec loses nothing: whatever stands behind a compressed blob, decompressing it
  gives the data back. The decoder's tree equals the encoder's because the heap depends only on the
  set of entries; each code leads from the root to its leaf; padding bits are never reached.
Imports: Priestly.Crypto.Huffman
Trusted boundary: none
Main exports: buildTree_perm, buildTree_symbols, prefixFree_buildCodes, compress_ok, decompress_payload,
  decompress_compress, huffman_round_trip
-/
import Priestly.Crypto.Huffman

namespace Priestly.Huffman

open ByteCodec

/-! ### The heap -/

theorem keyLe_total (a b : UInt8 × Nat) : KeyLe a b ∨ KeyLe b a := by
  simp only [KeyLe, UInt8.le_iff_toNat_le]
  omega

theorem keyLe_trans {a b c : UInt8 × Nat} (hab : KeyLe a b) (hbc : KeyLe b c) : KeyLe a c := by
  simp only [KeyLe, UInt8.le_iff_toNat_le] at *
  omega

theorem keyLe_antisymm {a b : UInt8 × Nat} (hab : KeyLe a b) (hba : KeyLe b a) : a = b := by
  simp only [KeyLe, UInt8.le_iff_toNat_le] at *
  apply Prod.ext
  · apply UInt8.toNat_inj.mp
    omega
  · omega

instance : Std.Total KeyLe := ⟨keyLe_total⟩

instance : IsTrans (UInt8 × Nat) KeyLe := ⟨fun _ _ _ => keyLe_trans⟩

instance : Std.Antisymm KeyLe := ⟨fun _ _ => keyLe_antisymm⟩

/-- The heap does not depend on the order in which the map was filled. -/
theorem heapify_perm {freq freq' : Freq} (h : freq.Perm freq') : heapify freq = heapify freq' := by
  have hsort : freq.insertionSort KeyLe = freq'.insertionSort KeyLe := by
    apply List.Perm.eq_of_pairwise' (List.pairwise_insertionSort KeyLe freq)
      (List.pairwise_insertionSort KeyLe freq')
    exact ((List.perm_insertionSort KeyLe freq).trans h).trans
      (List.perm_insertionSort KeyLe freq').symm
  rw [heapify, heapify, hsort]

/-- The tree does not depend on the order in which the map was filled. -/
theorem buildTree_perm {freq freq' : Freq} (h : freq.Perm freq') :
    buildTree freq = buildTree freq' := by
  rw [buildTree, buildTree, heapify_perm h, h.length_eq]

/-- The symbols under a heap. -/
def heapSymbols (heap : List HeapEntry) : List UInt8 := heap.flatMap fun entry => entry.node.symbols

theorem heapSymbols_perm {heap heap' : List HeapEntry} (h : heap.Perm heap') :
    (heapSymbols heap).Perm (heapSymbols heap') := h.flatMap_right _

theorem heappush_perm (heap : List HeapEntry) (entry : HeapEntry) :
    (heappush heap entry).Perm (entry :: heap) := List.perm_orderedInsert HeapEntry.Le entry heap

/-- The loop neither loses nor invents a symbol, and with enough rounds it leaves one entry. -/
theorem mergeLoop_spec (rounds : Nat) (heap : List HeapEntry) :
    (heapSymbols (mergeLoop rounds heap)).Perm (heapSymbols heap) ∧
      (heap ≠ [] → heap.length ≤ rounds + 1 → (mergeLoop rounds heap).length = 1) := by
  induction rounds generalizing heap with
  | zero =>
      rcases heap with _ | ⟨a, _ | ⟨b, heap⟩⟩
      · simp [mergeLoop]
      · simp [mergeLoop]
      · simp [mergeLoop]
  | succ rounds ih =>
      rcases heap with _ | ⟨a, _ | ⟨b, heap⟩⟩
      · simp [mergeLoop]
      · simp [mergeLoop]
      · obtain ⟨hperm, hlength⟩ := ih (heappush heap (a.merge b))
        have hpush := heappush_perm heap (a.merge b)
        refine ⟨?_, ?_⟩
        · refine hperm.trans ((heapSymbols_perm hpush).trans (List.Perm.of_eq ?_))
          simp [heapSymbols, HeapEntry.merge, PrefixTree.symbols]
        · intro _ hle
          apply hlength
          · exact List.ne_nil_of_length_pos (by rw [hpush.length_eq]; simp)
          · rw [hpush.length_eq]
            simp only [List.length_cons] at hle ⊢
            omega

/-- The heap of a map holds its symbols. -/
theorem heapSymbols_heapify (freq : Freq) :
    (heapSymbols (heapify freq)).Perm (freq.map Prod.fst) := by
  have hleaves : heapSymbols (heapify freq) = (freq.insertionSort KeyLe).map Prod.fst := by
    rw [heapSymbols, heapify, List.flatMap_map, List.map_eq_flatMap]
    rfl
  rw [hleaves]
  exact (List.perm_insertionSort KeyLe freq).map _

/-- A non-empty map has a tree, and the leaves of the tree are the symbols of the map. -/
theorem buildTree_symbols {freq : Freq} (h : freq ≠ []) :
    ∃ tree, buildTree freq = .ok tree ∧ tree.symbols.Perm (freq.map Prod.fst) := by
  obtain ⟨hperm, hlength⟩ := mergeLoop_spec freq.length (heapify freq)
  have hsize : (heapify freq).length = freq.length := by simp [heapify]
  have hone : (mergeLoop freq.length (heapify freq)).length = 1 := by
    apply hlength
    · exact List.ne_nil_of_length_pos (hsize ▸ List.length_pos_of_ne_nil h)
    · omega
  obtain ⟨entry, hentry⟩ := List.length_eq_one_iff.mp hone
  refine ⟨entry.node, by rw [buildTree, hentry], ?_⟩
  have hsymbols := hperm.trans (heapSymbols_heapify freq)
  rw [hentry] at hsymbols
  simpa [heapSymbols] using hsymbols

/-! ### Codes -/

/-- Below a non-empty path, or over an inner node, a code is the path to its leaf. -/
theorem buildCodes_eq (tree : Node) (path : List Bool) (h : path ≠ [] ∨ tree.isLeaf = false) :
    buildCodes tree path = tree.paths.map fun entry => (entry.1, path ++ entry.2) := by
  induction tree generalizing path with
  | leaf symbol =>
      have hpath : path ≠ [] := h.resolve_right (by simp [PrefixTree.isLeaf])
      simp [buildCodes, PrefixTree.paths, hpath]
  | branch left right ihl ihr =>
      rw [buildCodes, ihl _ (.inl (by simp)), ihr _ (.inl (by simp)), PrefixTree.paths,
        List.map_append, List.map_map, List.map_map]
      simp [Function.comp_def]

theorem buildCodes_root {tree : Node} (h : tree.isLeaf = false) :
    buildCodes tree [] = tree.paths := by
  rw [buildCodes_eq tree [] (.inr h)]
  simp

/-- The code table names the symbols of the tree. -/
theorem map_fst_buildCodes (tree : Node) (path : List Bool) :
    (buildCodes tree path).map Prod.fst = tree.symbols := by
  induction tree generalizing path with
  | leaf symbol => rfl
  | branch left right ihl ihr =>
      rw [buildCodes, List.map_append, ihl, ihr, PrefixTree.symbols]

/-- The code table is prefix-free, also when the tree is a single leaf. -/
theorem prefixFree_buildCodes (tree : Node) : PrefixTree.PrefixFree (buildCodes tree []) := by
  cases tree with
  | leaf symbol => exact List.pairwise_singleton _ _
  | branch left right =>
      rw [buildCodes_root rfl]
      exact PrefixTree.prefixFree_paths _

/-- Walking along the code of a symbol outputs that symbol. -/
theorem walk_path (root : Node) (length : Nat) (result : Bytes) {node : Node}
    (h : node.isLeaf = false) {symbol : UInt8} {path : List Bool}
    (hmem : (symbol, path) ∈ node.paths) (rest : List Bool) :
    walk root length node result (path ++ rest) =
      if (result ++ [symbol]).length = length then result ++ [symbol]
      else walk root length root (result ++ [symbol]) rest := by
  induction node generalizing path with
  | leaf other => cases h
  | branch left right ihl ihr =>
      have descend : ∀ (bit : Bool) (side : Node) (inner : List Bool),
          (PrefixTree.branch left right).child bit = side → (symbol, inner) ∈ side.paths →
          (side.isLeaf = false → walk root length side result (inner ++ rest) =
            if (result ++ [symbol]).length = length then result ++ [symbol]
            else walk root length root (result ++ [symbol]) rest) →
          walk root length (.branch left right) result (bit :: inner ++ rest) =
            if (result ++ [symbol]).length = length then result ++ [symbol]
            else walk root length root (result ++ [symbol]) rest := by
        intro bit side inner hside hinner ih
        rw [List.cons_append, walk, hside]
        cases side with
        | leaf other =>
            simp only [PrefixTree.paths, List.mem_singleton, Prod.mk.injEq] at hinner
            obtain ⟨rfl, rfl⟩ := hinner
            rfl
        | branch _ _ => exact ih rfl
      rw [PrefixTree.paths, List.mem_append, List.mem_map, List.mem_map] at hmem
      rcases hmem with ⟨⟨_, inner⟩, hinner, heq⟩ | ⟨⟨_, inner⟩, hinner, heq⟩
      · obtain ⟨rfl, rfl⟩ := Prod.mk.inj heq
        exact descend false left inner rfl hinner fun hside => ihl hside hinner
      · obtain ⟨rfl, rfl⟩ := Prod.mk.inj heq
        exact descend true right inner rfl hinner fun hside => ihr hside hinner

/-- Walking along codes outputs their symbols, whatever bits follow. -/
theorem walk_entries {root : Node} (h : root.isLeaf = false) (rest : List Bool) {length : Nat}
    (entries : List (UInt8 × List Bool)) (result : Bytes) (hne : entries ≠ [])
    (hmem : ∀ entry ∈ entries, entry ∈ root.paths)
    (hlength : result.length + entries.length = length) :
    walk root length root result ((entries.map Prod.snd).flatten ++ rest) =
      result ++ entries.map Prod.fst := by
  induction entries generalizing result with
  | nil => exact absurd rfl hne
  | cons entry entries ih =>
      have hentry : (entry.1, entry.2) ∈ root.paths := hmem entry List.mem_cons_self
      rw [List.map_cons, List.flatten_cons, List.append_assoc, walk_path root length result h hentry]
      simp only [List.length_cons] at hlength
      by_cases hlast : entries = []
      · rw [if_pos (by simp [hlast] at hlength ⊢; exact hlength), hlast]
        rfl
      · have hpos := List.length_pos_of_ne_nil hlast
        rw [if_neg (by simp; omega), ih (result ++ [entry.1]) hlast]
        · simp
        · intro other hother
          exact hmem other (List.mem_cons_of_mem _ hother)
        · simp
          omega

/-- Walking along the codes of the data outputs the data, whatever bits follow. -/
theorem walk_data {root : Node} (h : root.isLeaf = false) (code : UInt8 → List Bool)
    (rest : List Bool) {length : Nat} (data result : Bytes) (hne : data ≠ [])
    (hcode : ∀ symbol ∈ data, (symbol, code symbol) ∈ root.paths)
    (hlength : result.length + data.length = length) :
    walk root length root result ((data.map code).flatten ++ rest) = result ++ data := by
  have hentries := walk_entries h rest (data.map fun symbol => (symbol, code symbol)) result
    (by simpa using hne) (by simpa using hcode) (by simpa using hlength)
  simpa [Function.comp_def] using hentries

/-! ### Bit packing -/

theorem octetBits_intBase2 {bits : List Bool} (h : bits.length = 8) :
    octetBits (UInt8.ofNat (intBase2 bits)) = bits := by
  have all : ∀ a b c d e f g i : Bool,
      octetBits (UInt8.ofNat (intBase2 [a, b, c, d, e, f, g, i])) = [a, b, c, d, e, f, g, i] := by
    decide +kernel
  match bits, h with
  | [a, b, c, d, e, f, g, i], _ => exact all a b c d e f g i

theorem flatMap_octetBits_packOctets {octets : Nat} {bits : List Bool}
    (h : bits.length = 8 * octets) : (packOctets octets bits).flatMap octetBits = bits := by
  induction octets generalizing bits with
  | zero =>
      have hnil : bits = [] := List.length_eq_zero_iff.mp h
      rw [hnil]
      rfl
  | succ octets ih =>
      have htake : (bits.take 8).length = 8 := by
        rw [List.length_take]
        omega
      have hdrop : (bits.drop 8).length = 8 * octets := by
        rw [List.length_drop]
        omega
      rw [packOctets, List.flatMap_cons, octetBits_intBase2 htake, ih hdrop, List.take_append_drop]

/-- Reading packed bits gives them back, followed by padding. -/
theorem flatMap_octetBits_packBits (bits : List Bool) :
    ∃ padding, (packBits bits).flatMap octetBits = bits ++ padding := by
  refine ⟨List.replicate ((8 - bits.length % 8) % 8) false, ?_⟩
  rw [packBits]
  apply flatMap_octetBits_packOctets
  rw [List.length_append, List.length_replicate]
  omega

/-! ### The frequency table -/

private theorem nodup_eraseDups (data : Bytes) : data.eraseDups.Nodup := by
  induction hn : data.length using Nat.strong_induction_on generalizing data with
  | _ n ih =>
      cases data with
      | nil => simp
      | cons symbol data =>
          have hshort : (data.filter fun other => !other == symbol).length < n := by
            have := List.length_filter_le (fun other => !other == symbol) data
            simp only [List.length_cons] at hn
            omega
          rw [List.eraseDups_cons, List.nodup_cons]
          refine ⟨?_, ih _ hshort _ rfl⟩
          simp [List.mem_eraseDups]

theorem map_fst_counter (data : Bytes) : (counter data).map Prod.fst = data.eraseDups := by
  simp [counter, Function.comp_def]

theorem nodup_counter (data : Bytes) : ((counter data).map Prod.fst).Nodup := by
  rw [map_fst_counter]
  exact nodup_eraseDups data

theorem mem_counter_iff {data : Bytes} {symbol : UInt8} :
    symbol ∈ (counter data).map Prod.fst ↔ symbol ∈ data := by
  rw [map_fst_counter, List.mem_eraseDups]

theorem counter_ne_nil {data : Bytes} (h : data ≠ []) : counter data ≠ [] := by
  obtain ⟨symbol, hsymbol⟩ := List.exists_mem_of_ne_nil data h
  intro hnil
  have := mem_counter_iff.mpr hsymbol
  rw [hnil] at this
  cases this

/-- A frequency counts some of the data, so it fits its field when the length does. -/
theorem freq_lt_field {data : Bytes} (h : data.length < 2 ^ 32) {entry : UInt8 × Nat}
    (hentry : entry ∈ counter data) : entry.2 < 256 ^ 4 := by
  obtain ⟨symbol, _, rfl⟩ := List.mem_map.mp hentry
  have := List.count_le_length (a := symbol) (l := data)
  show data.count symbol < 256 ^ 4
  omega

/-- There are at most 256 symbols. -/
theorem length_counter_le (data : Bytes) : (counter data).length ≤ 256 := by
  have hnodup := (nodup_counter data).map (f := UInt8.toNat) fun _ _ => UInt8.toNat_inj.mp
  have hsub : (((counter data).map Prod.fst).map UInt8.toNat) ⊆ List.range 256 := by
    intro value hvalue
    obtain ⟨symbol, _, rfl⟩ := List.mem_map.mp hvalue
    exact List.mem_range.mpr symbol.toNat_lt
  simpa using (List.subperm_of_subset hnodup hsub).length_le

theorem sortedFreq_perm (freq : Freq) : (sortedFreq freq).Perm freq :=
  List.perm_insertionSort _ freq

/-- The rows of the table come in strictly increasing order of their symbols. -/
theorem sortedFreq_pairwise_lt (data : Bytes) :
    (sortedFreq (counter data)).Pairwise fun first second => first.1 < second.1 := by
  have hle : (sortedFreq (counter data)).Pairwise fun first second => first.1 ≤ second.1 :=
    List.pairwise_insertionSort _ _
  have hnodup : ((sortedFreq (counter data)).map Prod.fst).Nodup :=
    ((sortedFreq_perm (counter data)).map Prod.fst).nodup_iff.mpr (nodup_counter data)
  rw [List.Nodup, List.pairwise_map] at hnodup
  apply (hle.and hnodup).imp
  intro first second hboth
  exact UInt8.lt_of_le_of_ne hboth.1 hboth.2

/-- The octets of one row of the table. -/
def rowBytes (entry : UInt8 × Nat) : Bytes := entry.1 :: toBytesBE 4 entry.2

/-- A symbol that is not in the map yet is appended. -/
theorem setFreq_of_not_mem {freq : Freq} {symbol : UInt8} (h : symbol ∉ freq.map Prod.fst)
    (value : Nat) : setFreq freq symbol value = freq ++ [(symbol, value)] := by
  rw [setFreq, if_neg h]

/-- Reading the rows of a table appends its entries. -/
theorem readFreqs_rows (entries : Freq) (rest : Bytes) (freq : Freq)
    (hnodup : ((freq ++ entries).map Prod.fst).Nodup)
    (hsmall : ∀ entry ∈ entries, entry.2 < 256 ^ 4) :
    readFreqs entries.length (entries.flatMap rowBytes ++ rest) freq =
      .ok (freq ++ entries, rest) := by
  induction entries generalizing freq with
  | nil => simp [readFreqs]
  | cons entry entries ih =>
      have hfresh : entry.1 ∉ freq.map Prod.fst := by
        rw [List.map_append, List.nodup_append] at hnodup
        intro hmem
        exact hnodup.2.2 _ hmem entry.1 (by simp) rfl
      have hlen : (toBytesBE 4 entry.2).length = 4 := length_toBytesBE 4 entry.2
      have hvalue := hsmall entry List.mem_cons_self
      rw [List.length_cons, List.flatMap_cons, rowBytes, List.cons_append, List.cons_append,
        List.append_assoc, readFreqs, List.take_left' hlen, List.drop_left' hlen,
        ofBytesBE_toBytesBE_of_lt hvalue, setFreq_of_not_mem hfresh, ih]
      · simp
      · simpa using hnodup
      · intro other hother
        exact hsmall other (List.mem_cons_of_mem _ hother)

/-! ### The round trip -/

theorem toBytes_ok {n width : Nat} (h : n < 256 ^ width) : toBytes n width = .ok (toBytesBE width n) := by
  rw [toBytes, if_pos h]

/-- The table of a map of small frequencies. -/
theorem freqTable_ok {freq : Freq} (h : ∀ entry ∈ freq, entry.2 < 256 ^ 4) :
    freqTable freq = .ok ((sortedFreq freq).flatMap rowBytes) := by
  have hrows : (sortedFreq freq).mapM freqRow = .ok ((sortedFreq freq).map rowBytes) := by
    apply mapM_ok
    intro entry hentry
    rw [freqRow, toBytes_ok (h entry ((sortedFreq_perm freq).mem_iff.mp hentry))]
    rfl
  rw [freqTable, hrows]
  rfl

/-- Every symbol of the data has a code, and over an inner node that code is its path. -/
theorem exists_codes {data : Bytes} {tree : Node}
    (h : tree.symbols.Perm ((counter data).map Prod.fst)) :
    ∃ code : UInt8 → List Bool,
      encodeBits (buildCodes tree []) data = .ok (data.map code).flatten ∧
        (tree.isLeaf = false → ∀ symbol ∈ data, (symbol, code symbol) ∈ tree.paths) := by
  refine ⟨fun symbol => ((buildCodes tree []).lookup symbol).getD [], ?_⟩
  have hsymbols : ∀ symbol ∈ data, symbol ∈ tree.symbols := fun symbol hsymbol =>
    h.mem_iff.mpr (mem_counter_iff.mpr hsymbol)
  have hbits : ∀ (table : List (UInt8 × List Bool)),
      (∀ symbol ∈ data, ∃ code, table.lookup symbol = some code) →
      encodeBits table data =
        .ok (data.map fun symbol => (table.lookup symbol).getD []).flatten := by
    intro table htable
    have hmap : data.mapM (codeOf table) =
        .ok (data.map fun symbol => (table.lookup symbol).getD []) := by
      apply mapM_ok
      intro symbol hsymbol
      obtain ⟨code, hcode⟩ := htable symbol hsymbol
      simp [codeOf, hcode]
    rw [encodeBits, hmap]
    rfl
  cases tree with
  | leaf only =>
      refine ⟨hbits _ ?_, fun hleaf => ?_⟩
      · intro symbol hsymbol
        have hsame : symbol = only := by simpa [PrefixTree.symbols] using hsymbols symbol hsymbol
        exact ⟨[false], by simp [buildCodes, hsame]⟩
      · cases hleaf
  | branch left right =>
      rw [buildCodes_root rfl]
      refine ⟨hbits _ ?_, fun _ => ?_⟩
      · intro symbol hsymbol
        obtain ⟨path, hpath, _⟩ := PrefixTree.exists_path (hsymbols symbol hsymbol)
        exact ⟨path, hpath⟩
      · intro symbol hsymbol
        obtain ⟨path, hpath, hmem⟩ := PrefixTree.exists_path (hsymbols symbol hsymbol)
        simp only [hpath, Option.getD_some]
        exact hmem

/-- What compressing non-empty data writes. -/
theorem compress_ok {data : Bytes} (hne : data ≠ []) (h : data.length < 2 ^ 32) :
    ∃ (tree : Node) (code : UInt8 → List Bool),
      buildTree (counter data) = .ok tree ∧
      tree.symbols.Perm ((counter data).map Prod.fst) ∧
      encodeBits (buildCodes tree []) data = .ok (data.map code).flatten ∧
      (tree.isLeaf = false → ∀ symbol ∈ data, (symbol, code symbol) ∈ tree.paths) ∧
      compress data = .ok (toBytesBE 4 data.length ++ toBytesBE 2 (counter data).length ++
        (sortedFreq (counter data)).flatMap rowBytes ++ packBits (data.map code).flatten) := by
  obtain ⟨tree, htree, hsymbols⟩ := buildTree_symbols (counter_ne_nil hne)
  obtain ⟨code, hbits, hpaths⟩ := exists_codes hsymbols
  have hlength : toBytes data.length 4 = .ok (toBytesBE 4 data.length) := toBytes_ok (by omega)
  have hcount : toBytes (counter data).length 2 = .ok (toBytesBE 2 (counter data).length) := by
    apply toBytes_ok
    have := length_counter_le data
    omega
  have htable := freqTable_ok fun entry hentry => freq_lt_field h hentry
  refine ⟨tree, code, htree, hsymbols, hbits, hpaths, ?_⟩
  simp only [compress, hlength, hcount, htable, htree, if_neg hne, ok_bind, hbits]
  rfl

theorem compress_nil : compress [] = .ok [0, 0, 0, 0, 0, 0] := by
  simp [compress, toBytes_ok, toBytesBE]

/-- Compressing fails only when the length does not fit its field. -/
theorem compress_eq_ok_iff (data : Bytes) :
    (∃ blob, compress data = .ok blob) ↔ data.length < 2 ^ 32 := by
  by_cases h : data.length < 2 ^ 32
  · refine ⟨fun _ => h, fun _ => ?_⟩
    by_cases hne : data = []
    · exact ⟨_, by rw [hne]; rfl⟩
    · obtain ⟨_, _, _, _, _, _, hok⟩ := compress_ok hne h
      exact ⟨_, hok⟩
  · refine ⟨fun ⟨blob, hblob⟩ => ?_, fun hlt => absurd hlt h⟩
    have hfail : toBytes data.length 4 = .error (.overflowError "int too big to convert") := by
      rw [toBytes, if_neg (by omega)]
    rw [compress, hfail] at hblob
    cases hblob

/-- Data over a single symbol is that symbol repeated. -/
theorem replicate_of_single {data : Bytes} {symbol : UInt8}
    (h : (PrefixTree.leaf symbol).symbols.Perm ((counter data).map Prod.fst)) :
    List.replicate data.length symbol = data := by
  symm
  apply List.eq_replicate_of_mem
  intro other hother
  have hmem := h.mem_iff.mpr (mem_counter_iff.mpr hother)
  exact List.mem_singleton.mp hmem

/-- Everything a blob holds before its bits: the length, the number of symbols and the table. -/
def blobHead (data : Bytes) : Bytes :=
  toBytesBE 4 data.length ++ toBytesBE 2 (counter data).length ++
    (sortedFreq (counter data)).flatMap rowBytes

/-- The number of symbols fits its field. -/
theorem ofBytesBE_count (data : Bytes) :
    ofBytesBE (toBytesBE 2 (counter data).length) = (sortedFreq (counter data)).length := by
  rw [ofBytesBE_toBytesBE_of_lt, (sortedFreq_perm _).length_eq]
  have := length_counter_le data
  omega

/-- The table reads back as the map sorted by symbol. -/
theorem readFreqs_table {data : Bytes} (h : data.length < 2 ^ 32) (payload : Bytes) :
    readFreqs (counter data).length ((sortedFreq (counter data)).flatMap rowBytes ++ payload) [] =
      .ok (sortedFreq (counter data), payload) := by
  have hsorted := sortedFreq_perm (counter data)
  have hrows := readFreqs_rows (sortedFreq (counter data)) payload []
    ((hsorted.map Prod.fst).nodup_iff.mpr (nodup_counter data))
    (fun entry hentry => freq_lt_field h (hsorted.mem_iff.mp hentry))
  rw [hsorted.length_eq] at hrows
  exact hrows

/-- Decoding outputs the data and stops there, whatever bits the payload holds after its codes. -/
theorem decompress_payload {data : Bytes} (hne : data ≠ []) (hlt : data.length < 2 ^ 32)
    {tree : Node} {code : UInt8 → List Bool} (htree : buildTree (counter data) = .ok tree)
    (hsymbols : tree.symbols.Perm ((counter data).map Prod.fst))
    (hpaths : tree.isLeaf = false → ∀ symbol ∈ data, (symbol, code symbol) ∈ tree.paths)
    {payload : Bytes} (hbits : (data.map code).flatten <+: payload.flatMap octetBits) :
    decompress (blobHead data ++ payload) = .ok data := by
  have hlen4 : (toBytesBE 4 data.length).length = 4 := length_toBytesBE _ _
  have hlen2 : (toBytesBE 2 (counter data).length).length = 2 := length_toBytesBE _ _
  have hcount := ofBytesBE_count data
  rw [(sortedFreq_perm _).length_eq] at hcount
  have hrows := readFreqs_table hlt payload
  have hsorted : buildTree (sortedFreq (counter data)) = .ok tree := by
    rw [buildTree_perm (sortedFreq_perm _), htree]
  have hpos : data.length ≠ 0 := by simpa using hne
  have hvalue : ofBytesBE (toBytesBE 4 data.length) = data.length :=
    ofBytesBE_toBytesBE_of_lt (by omega)
  simp only [decompress, blobHead, List.append_assoc, List.take_left' hlen4, List.drop_left' hlen4,
    List.take_left' hlen2, List.drop_left' hlen2, hvalue, hcount, hrows, if_neg hpos, ok_bind,
    hsorted]
  cases tree with
  | leaf symbol => exact congrArg Except.ok (replicate_of_single hsymbols)
  | branch left right =>
      obtain ⟨padding, hpadding⟩ := hbits
      rw [← hpadding]
      exact congrArg Except.ok (walk_data rfl code _ data [] hne (hpaths rfl) (by simp))

/-- The packed bits begin any payload made from them. -/
theorem bits_prefix_packBits (bits : List Bool) (suffix : Bytes) :
    bits <+: (packBits bits ++ suffix).flatMap octetBits := by
  obtain ⟨padding, hbits⟩ := flatMap_octetBits_packBits bits
  rw [List.flatMap_append, hbits, List.append_assoc]
  exact List.prefix_append _ _

/-- Whatever follows a compressed blob, decompressing gives the data back. -/
theorem decompress_compress {data blob : Bytes} (h : compress data = .ok blob) (suffix : Bytes) :
    decompress (blob ++ suffix) = .ok data := by
  have hlt : data.length < 2 ^ 32 := (compress_eq_ok_iff data).mp ⟨blob, h⟩
  by_cases hne : data = []
  · have hblob : blob = [0, 0, 0, 0, 0, 0] := by
      rw [hne, compress_nil] at h
      exact (Except.ok.inj h).symm
    have hlength : ofBytesBE (([0, 0, 0, 0, 0, 0] ++ suffix : Bytes).take 4) = 0 := by
      simp [ofBytesBE]
    simp only [hblob, hne, decompress, hlength, if_true, pure_ok]
  · obtain ⟨tree, code, htree, hsymbols, _, hpaths, hok⟩ := compress_ok hne hlt
    rw [hok] at h
    cases h
    rw [List.append_assoc]
    exact decompress_payload hne hlt htree hsymbols hpaths (bits_prefix_packBits _ suffix)

/-- The codec round trip. Every byte string that fits the length field has a blob, and the blob
followed by anything decompresses to the string. Where there is something to encode, the blob is a
head and the packed codes: the head reads back as the map sorted by symbol, from which the decoder
builds the tree of the encoder and so the same prefix-free codes, and decoding ends with the recorded
length whatever octets carry the code bits and whatever comes after them. -/
theorem huffman_round_trip (data : Bytes) (h : data.length < 2 ^ 32) :
    ∃ blob, compress data = .ok blob ∧
      (∀ suffix, decompress (blob ++ suffix) = .ok data) ∧
      (data ≠ [] → ∃ tree bits,
        blob = blobHead data ++ packBits bits ∧
        (∀ payload, readFreqs (counter data).length ((blobHead data).drop 6 ++ payload) [] =
          .ok (sortedFreq (counter data), payload)) ∧
        (sortedFreq (counter data)).Pairwise (fun first second => first.1 < second.1) ∧
        buildTree (counter data) = .ok tree ∧ buildTree (sortedFreq (counter data)) = .ok tree ∧
        ((buildCodes tree []).map Prod.fst).Perm data.eraseDups ∧
        PrefixTree.PrefixFree (buildCodes tree []) ∧
        encodeBits (buildCodes tree []) data = .ok bits ∧
        ∀ payload, bits <+: payload.flatMap octetBits →
          decompress (blobHead data ++ payload) = .ok data) := by
  obtain ⟨blob, hblob⟩ := (compress_eq_ok_iff data).mpr h
  refine ⟨blob, hblob, decompress_compress hblob, fun hne => ?_⟩
  obtain ⟨tree, code, htree, hsymbols, hbits, hpaths, hok⟩ := compress_ok hne h
  have hhead : (blobHead data).drop 6 = (sortedFreq (counter data)).flatMap rowBytes := by
    rw [blobHead]
    apply List.drop_left'
    rw [List.length_append, length_toBytesBE, length_toBytesBE]
  refine ⟨tree, (data.map code).flatten, ?_, ?_, sortedFreq_pairwise_lt data, htree, ?_, ?_,
    prefixFree_buildCodes tree, hbits, ?_⟩
  · rw [hblob] at hok
    exact Except.ok.inj hok
  · intro payload
    rw [hhead]
    exact readFreqs_table h payload
  · rw [buildTree_perm (sortedFreq_perm _), htree]
  · rw [map_fst_buildCodes, ← map_fst_counter]
    exact hsymbols
  · intro payload hpayload
    exact decompress_payload hne h htree hsymbols hpaths hpayload

/-- The round trip of a string of two symbols with a trailing octet. -/
theorem huffman_round_trip_aab : ∃ blob, compress [97, 97, 98] = .ok blob ∧
    decompress (blob ++ [255]) = .ok [97, 97, 98] := by
  obtain ⟨blob, hblob, hdecompress, _⟩ := huffman_round_trip [97, 97, 98] (by decide)
  exact ⟨blob, hblob, hdecompress [255]⟩

end Priestly.Huffman
