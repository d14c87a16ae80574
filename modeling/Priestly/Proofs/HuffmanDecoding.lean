/-
Module: Priestly.Proofs.HuffmanDecoding
Layer: Proofs
Purpose: What decompressing does with any blob. The table is read or cut before one of its symbols; the
  walk outputs one symbol for each complete code in the payload, at most as many as the header declares;
  and the result has the declared length exactly when the payload carries that many codes.
Imports: Priestly.Proofs.Huffman
Trusted boundary: none
Main exports: TableReadable, CarriesCodes, readFreqs_eq, decompress_eq, decompress_eq_error_iff,
  length_walk_le, length_walk_eq_iff, decompress_exact_iff
-/
import Priestly.Proofs.Huffman

namespace Priestly.Huffman

open ByteCodec

/-! ### The header and the table -/

/-- The length the header of a blob declares. -/
def declaredLength (blob : Bytes) : Nat := ofBytesBE (blob.take 4)

/-- The number of table rows the header of a blob declares. -/
def declaredCount (blob : Bytes) : Nat := ofBytesBE ((blob.drop 4).take 2)

/-- The table has a row, and no row is cut before its symbol. The frequency of the last row may be cut. -/
def TableReadable (blob : Bytes) : Prop :=
  declaredCount blob ≠ 0 ∧ 5 * (declaredCount blob - 1) < (blob.drop 6).length

instance (blob : Bytes) : Decidable (TableReadable blob) := inferInstanceAs (Decidable (_ ∧ _))

/-- A row of a table: a symbol and its frequency. -/
def tableRow (table : Bytes) (row : Nat) : UInt8 × Nat :=
  (table.getD (5 * row) 0, ofBytesBE ((table.drop (5 * row + 1)).take 4))

/-- The rows of a table entered into a map one after the other. -/
def enterRows (table : Bytes) (rows : List Nat) (freq : Freq) : Freq :=
  rows.foldl (fun freq row => setFreq freq (tableRow table row).1 (tableRow table row).2) freq

/-- The map a blob's table describes. -/
def tableFreq (blob : Bytes) : Freq :=
  enterRows (blob.drop 6) (List.range (declaredCount blob)) []

/-- The bits behind a blob's table. -/
def payloadBits (blob : Bytes) : List Bool :=
  ((blob.drop 6).drop (5 * declaredCount blob)).flatMap octetBits

theorem tableRow_succ (symbol : UInt8) (rest : Bytes) (row : Nat) :
    tableRow (symbol :: rest) (row + 1) = tableRow (rest.drop 4) row := by
  have hget : 5 * (row + 1) = (4 + 5 * row) + 1 := by omega
  have hdrop : 5 * row + 5 = 4 + (5 * row + 1) := by omega
  apply Prod.ext
  · simp only [tableRow, hget, List.getD_eq_getElem?_getD, List.getElem?_cons_succ,
      List.getElem?_drop]
  · simp only [tableRow, Nat.mul_add, Nat.mul_one, List.drop_succ_cons, List.drop_drop, hdrop]

theorem enterRows_succ (symbol : UInt8) (rest : Bytes) (count : Nat) (freq : Freq) :
    enterRows (symbol :: rest) (List.range (count + 1)) freq =
      enterRows (rest.drop 4) (List.range count)
        (setFreq freq symbol (ofBytesBE (rest.take 4))) := by
  simp only [enterRows, List.range_succ_eq_map, List.foldl_cons, List.foldl_map, tableRow_succ]
  rfl

/-- The loop over the table enters its rows and stops behind them, and fails when the table is cut
before a symbol. -/
theorem readFreqs_eq (count : Nat) (rest : Bytes) (freq : Freq) :
    readFreqs count rest freq =
      if count = 0 ∨ 5 * (count - 1) < rest.length then
        .ok (enterRows rest (List.range count) freq, rest.drop (5 * count))
      else .error (.indexError "index out of range") := by
  induction count generalizing rest freq with
  | zero => simp [readFreqs, enterRows]
  | succ count ih =>
      cases rest with
      | nil => simp [readFreqs]
      | cons symbol rest =>
          have hcond : (count = 0 ∨ 5 * (count - 1) < (rest.drop 4).length) ↔
              (count + 1 = 0 ∨ 5 * (count + 1 - 1) < (symbol :: rest).length) := by
            rw [List.length_drop, List.length_cons]
            omega
          have hdrop : 5 * (count + 1) = (4 + 5 * count) + 1 := by omega
          rw [readFreqs, ih, enterRows_succ, hdrop, List.drop_succ_cons, List.drop_drop]
          simp only [hcond]

theorem setFreq_ne_nil (freq : Freq) (symbol : UInt8) (value : Nat) :
    setFreq freq symbol value ≠ [] := by
  rw [setFreq]
  by_cases h : symbol ∈ freq.map Prod.fst
  · rw [if_pos h]
    intro hnil
    rw [List.map_eq_nil_iff.mp hnil] at h
    cases h
  · rw [if_neg h]
    exact List.append_ne_nil_of_right_ne_nil _ (List.cons_ne_nil _ _)

theorem enterRows_ne_nil (table : Bytes) (rows : List Nat) {freq : Freq}
    (h : rows ≠ [] ∨ freq ≠ []) : enterRows table rows freq ≠ [] := by
  induction rows generalizing freq with
  | nil => exact h.resolve_left fun hne => hne rfl
  | cons row rows ih => exact ih (.inr (setFreq_ne_nil _ _ _))

/-- A readable table describes a tree. -/
theorem exists_tree {blob : Bytes} (h : TableReadable blob) :
    ∃ tree, buildTree (tableFreq blob) = .ok tree := by
  have hrows : List.range (declaredCount blob) ≠ [] := by
    rw [Ne, List.range_eq_nil]
    exact h.1
  obtain ⟨tree, htree, _⟩ := buildTree_symbols (enterRows_ne_nil (blob.drop 6) _ (.inl hrows))
  exact ⟨tree, htree⟩

/-- What the decoder outputs for a tree. -/
def decodeTree (length : Nat) (bits : List Bool) : Node → Bytes
  | .leaf symbol => List.replicate length symbol
  | .branch left right => walk (.branch left right) length (.branch left right) [] bits

/-- Decompressing reads the header, the table and the codes; it fails exactly when something is
declared and the table is not readable. -/
theorem decompress_eq (blob : Bytes) :
    (declaredLength blob = 0 ∧ decompress blob = .ok []) ∨
    (declaredLength blob ≠ 0 ∧ ¬ TableReadable blob ∧
      ∃ text, decompress blob = .error (.indexError text)) ∨
    (declaredLength blob ≠ 0 ∧ TableReadable blob ∧ ∃ tree,
      buildTree (tableFreq blob) = .ok tree ∧
      decompress blob = .ok (decodeTree (declaredLength blob) (payloadBits blob) tree)) := by
  have hdrop : (blob.drop 4).drop 2 = blob.drop 6 := by rw [List.drop_drop]
  by_cases hlength : declaredLength blob = 0
  · left
    refine ⟨hlength, ?_⟩
    rw [declaredLength] at hlength
    rw [decompress, hlength]
    rfl
  · right
    have hread := readFreqs_eq (declaredCount blob) (blob.drop 6) []
    by_cases htable : TableReadable blob
    · right
      refine ⟨hlength, htable, ?_⟩
      obtain ⟨tree, htree⟩ := exists_tree htable
      refine ⟨tree, htree, ?_⟩
      rw [if_pos (.inr htable.2)] at hread
      rw [decompress, hdrop]
      refine (if_neg hlength).trans ?_
      simp only [tableFreq, declaredCount] at hread htree
      rw [hread, ok_bind]
      simp only [htree, ok_bind]
      cases tree with
      | leaf symbol => rfl
      | branch left right => rfl
    · left
      refine ⟨hlength, htable, ?_⟩
      rw [declaredLength] at hlength
      by_cases hcount : declaredCount blob = 0
      · rw [if_pos (.inl hcount)] at hread
        rw [declaredCount] at hread hcount
        rw [hcount] at hread
        rw [decompress, hdrop, if_neg hlength, hcount, hread]
        exact ⟨_, rfl⟩
      · rw [if_neg fun h => h.elim hcount fun hlt => htable ⟨hcount, hlt⟩] at hread
        rw [declaredCount] at hread
        rw [decompress, hdrop, if_neg hlength, hread]
        exact ⟨_, rfl⟩

/-- Decompressing fails exactly when something is declared and the table is empty or cut before a
symbol. -/
theorem decompress_eq_error_iff (blob : Bytes) :
    (∃ exn, decompress blob = .error exn) ↔ declaredLength blob ≠ 0 ∧ ¬ TableReadable blob := by
  rcases decompress_eq blob with ⟨hzero, hok⟩ | ⟨hlength, htable, text, herror⟩ |
    ⟨_, htable, tree, _, hok⟩
  · simp [hzero, hok]
  · simp [hlength, htable, herror]
  · simp [htable, hok]

/-- Decompressing raises nothing but `IndexError`. -/
theorem decompress_eq_error {blob : Bytes} {exn : Exn} (h : decompress blob = .error exn) :
    ∃ text, exn = .indexError text := by
  rcases decompress_eq blob with ⟨_, hok⟩ | ⟨_, _, text, herror⟩ | ⟨_, _, tree, _, hok⟩
  · cases hok.symm.trans h
  · cases herror.symm.trans h
    exact ⟨text, rfl⟩
  · cases hok.symm.trans h

/-! ### The walk -/

/-- Codes of a tree that stand one after the other at the front of the bits. -/
structure CodesAt (root : Node) (bits : List Bool) (codes : List (UInt8 × List Bool)) : Prop where
  mem : ∀ code ∈ codes, code ∈ root.paths
  isPrefix : (codes.map Prod.snd).flatten <+: bits

/-- The bits from the root to an inner node, which continue to the codes below it. -/
def Below (root node : Node) (path : List Bool) : Prop :=
  node.isLeaf = false ∧ ∀ code ∈ node.paths, (code.1, path ++ code.2) ∈ root.paths

theorem below_root {root : Node} (h : root.isLeaf = false) : Below root root [] := by
  constructor
  · exact h
  · intro code hcode
    exact hcode

/-- One bit further leads to a leaf, whose code is complete, or to an inner node. -/
theorem Below.child {root node : Node} {path : List Bool} (h : Below root node path) (bit : Bool) :
    (∃ symbol, node.child bit = .leaf symbol ∧ (symbol, path ++ [bit]) ∈ root.paths) ∨
    ∃ left right, node.child bit = .branch left right ∧
      Below root (.branch left right) (path ++ [bit]) := by
  rcases h with ⟨hinner, hcodes⟩
  have hchild : ∀ code ∈ (node.child bit).paths, (code.1, path ++ [bit] ++ code.2) ∈ root.paths := by
    intro code hcode
    rw [List.append_assoc]
    apply hcodes (code.1, bit :: code.2)
    cases node with
    | leaf symbol => cases hinner
    | branch left right =>
        rw [PrefixTree.paths, List.mem_append, List.mem_map, List.mem_map]
        cases bit with
        | false => exact .inl ⟨code, hcode, rfl⟩
        | true => exact .inr ⟨code, hcode, rfl⟩
  cases hnode : node.child bit with
  | leaf symbol =>
      left
      rw [hnode] at hchild
      exact ⟨symbol, rfl, by simpa using hchild (symbol, []) (List.mem_singleton_self _)⟩
  | branch left right =>
      right
      rw [hnode] at hchild
      exact ⟨left, right, rfl, rfl, hchild⟩

/-- The walk outputs the symbols of codes that stand at the front of the bits, and stops with the bits or
at the length. -/
theorem walk_codes {root : Node} (hroot : root.isLeaf = false) {length : Nat} (bits : List Bool)
    {node : Node} {path : List Bool} (h : Below root node path) (result : Bytes)
    (hlt : result.length < length) :
    ∃ codes, CodesAt root (path ++ bits) codes ∧
      walk root length node result bits = result ++ codes.map Prod.fst ∧
      result.length + codes.length ≤ length := by
  induction bits generalizing node path result with
  | nil =>
      exists []
      constructor
      · exact ⟨by simp, List.nil_prefix⟩
      · simp only [walk, List.map_nil, List.append_nil, List.length_nil, Nat.add_zero, true_and]
        exact hlt.le
  | cons bit bits ih =>
      have hsplit : path ++ bit :: bits = path ++ [bit] ++ bits := by simp
      rcases h.child bit with ⟨symbol, hnode, hcode⟩ | ⟨left, right, hnode, hbelow⟩
      · by_cases hlast : (result ++ [symbol]).length = length
        · exists [(symbol, path ++ [bit])]
          constructor
          · constructor
            · simpa using hcode
            · rw [hsplit]
              simp
          · rw [walk, hnode]
            simp only [if_pos hlast, List.map_cons, List.map_nil, true_and]
            rw [List.length_append] at hlast
            exact hlast.le
        · have hshort : (result ++ [symbol]).length < length := by
            rw [List.length_append, List.length_singleton] at hlast ⊢
            omega
          obtain ⟨codes, hcodes, hwalk, hle⟩ := ih (below_root hroot) (result ++ [symbol]) hshort
          exists (symbol, path ++ [bit]) :: codes
          constructor
          · constructor
            · intro code hmem
              rcases List.mem_cons.mp hmem with rfl | hmem
              · exact hcode
              · exact hcodes.mem code hmem
            · rw [hsplit, List.map_cons, List.flatten_cons]
              exact (List.prefix_append_right_inj _).mpr hcodes.isPrefix
          · rw [walk, hnode]
            simp only [if_neg hlast, hwalk, List.map_cons, List.append_assoc, List.singleton_append,
              true_and]
            simp only [List.length_append, List.length_cons, List.length_nil] at hle ⊢
            omega
      · obtain ⟨codes, hcodes, hwalk, hle⟩ := ih hbelow result hlt
        exists codes
        constructor
        · rw [hsplit]
          exact hcodes
        · rw [walk, hnode]
          exact ⟨hwalk, hle⟩

/-- The walk never outputs more than the length. -/
theorem length_walk_le {root : Node} (hroot : root.isLeaf = false) {length : Nat} (hpos : 0 < length)
    (bits : List Bool) : (walk root length root [] bits).length ≤ length := by
  obtain ⟨codes, _, hwalk, hle⟩ := walk_codes hroot bits (below_root hroot) [] hpos
  rw [hwalk]
  simpa using hle

/-- The walk outputs the length exactly when that many codes stand at the front of the bits. -/
theorem length_walk_eq_iff {root : Node} (hroot : root.isLeaf = false) {length : Nat}
    (hpos : 0 < length) (bits : List Bool) :
    (walk root length root [] bits).length = length ↔
      ∃ codes, CodesAt root bits codes ∧ codes.length = length := by
  constructor
  · intro h
    obtain ⟨codes, hcodes, hwalk, _⟩ := walk_codes hroot bits (below_root hroot) [] hpos
    rw [hwalk] at h
    exact ⟨codes, hcodes, by simpa using h⟩
  · rintro ⟨codes, hcodes, hlength⟩
    have hne : codes ≠ [] := List.ne_nil_of_length_pos (hlength ▸ hpos)
    obtain ⟨rest, hrest⟩ := hcodes.isPrefix
    have hwalk := walk_entries hroot rest codes [] hne hcodes.mem (by simpa using hlength)
    rw [hrest] at hwalk
    rw [hwalk]
    simpa using hlength

/-! ### The amount of data -/

/-- The payload begins with as many codes of the table's tree as the header declares symbols. -/
def CarriesCodes (blob : Bytes) : Prop :=
  ∃ tree codes, buildTree (tableFreq blob) = .ok tree ∧ CodesAt tree (payloadBits blob) codes ∧
    codes.length = declaredLength blob

/-- A tree that is a single leaf needs no bits: its code is empty on the path. -/
theorem codesAt_leaf (symbol : UInt8) (length : Nat) (bits : List Bool) :
    CodesAt (.leaf symbol) bits (List.replicate length (symbol, [])) := by
  constructor
  · intro code hcode
    exact List.mem_singleton.mpr (List.eq_of_mem_replicate hcode)
  · simp

/-- The decoder outputs the declared length exactly when the payload carries its codes. -/
theorem length_decodeTree_iff {blob : Bytes} {tree : Node} (hpos : declaredLength blob ≠ 0)
    (htree : buildTree (tableFreq blob) = .ok tree) :
    (decodeTree (declaredLength blob) (payloadBits blob) tree).length = declaredLength blob ↔
      CarriesCodes blob := by
  have hcarries : CarriesCodes blob ↔
      ∃ codes, CodesAt tree (payloadBits blob) codes ∧ codes.length = declaredLength blob := by
    constructor
    · rintro ⟨tree', codes, htree', hcodes⟩
      obtain rfl := Except.ok.inj (htree.symm.trans htree')
      exact ⟨codes, hcodes⟩
    · rintro ⟨codes, hcodes⟩
      exact ⟨tree, codes, htree, hcodes⟩
  rw [hcarries]
  cases tree with
  | leaf symbol =>
      simp only [decodeTree, List.length_replicate, true_iff]
      exact ⟨_, codesAt_leaf symbol _ _, List.length_replicate⟩
  | branch left right => exact length_walk_eq_iff rfl (Nat.pos_of_ne_zero hpos) _

/-- Whatever the blob, no more comes out than the header declares. -/
theorem length_decompress_le {blob data : Bytes} (h : decompress blob = .ok data) :
    data.length ≤ declaredLength blob := by
  rcases decompress_eq blob with ⟨_, hok⟩ | ⟨_, _, text, herror⟩ | ⟨hlength, _, tree, _, hok⟩
  · rw [hok] at h
    cases h
    exact Nat.zero_le _
  · rw [herror] at h
    cases h
  · rw [hok] at h
    cases h
    cases tree with
    | leaf symbol => exact List.length_replicate.le
    | branch left right => exact length_walk_le rfl (Nat.pos_of_ne_zero hlength) _

/-- Decompressing gives exactly the declared amount of data, or fails, exactly for these blobs: nothing is
declared, the table is empty or cut before a symbol, or the payload carries as many codes as declared. -/
theorem decompress_exact_iff (blob : Bytes) :
    (∀ data, decompress blob = .ok data → data.length = ofBytesBE (blob.take 4)) ↔
      declaredLength blob = 0 ∨ ¬ TableReadable blob ∨ CarriesCodes blob := by
  rcases decompress_eq blob with ⟨hzero, hok⟩ | ⟨_, htable, text, herror⟩ |
    ⟨hlength, htable, tree, htree, hok⟩
  · rw [declaredLength] at hzero
    simp [hok, hzero, declaredLength]
  · simp [herror, htable]
  · have hiff := length_decodeTree_iff hlength htree
    rw [hok]
    constructor
    · intro h
      exact .inr (.inr (hiff.mp (h _ rfl)))
    · rintro (hzero | hunreadable | hcarries)
      · exact absurd hzero hlength
      · exact absurd htable hunreadable
      · rintro data ⟨⟩
        exact hiff.mpr hcarries

/-- A blob that declares nine symbols and carries the codes of eight: eight come out. -/
theorem decompress_truncated : ∃ blob data,
    decompress blob = .ok data ∧ data.length ≠ ofBytesBE (blob.take 4) := by
  apply Exists.intro [0, 0, 0, 9, 0, 2, 97, 0, 0, 0, 3, 98, 0, 0, 0, 2, 0]
  apply Exists.intro (List.replicate 8 98)
  decide

end Priestly.Huffman
