/-
Module: Priestly.Crypto.Huffman
Layer: Crypto
Purpose: The codec of `crypto/huffman.py`: the frequency table, the deterministic tree built over a
  priority queue, the code table, the bit packing, and the decoder with its error paths.
Imports: Priestly.Lib.PrefixTree, Priestly.Lib.PriorityQueue, Priestly.Python.Builtins
Trusted boundary: for the codec, `heapq` is a list kept in the order of its entries' keys
Main exports: Node, buildTree, buildTreeWith, buildCodes, packBits, compress, decompress
-/
import Mathlib.Data.List.Sort
import Priestly.Lib.PrefixTree
import Priestly.Lib.PriorityQueue
import Priestly.Python.Builtins

namespace Priestly

open ByteCodec

namespace Huffman

/-- `_Node`: a leaf carries a symbol, an inner node its two children. -/
abbrev Node := PrefixTree UInt8

/-- A symbol-to-frequency map, each symbol once, in the order of insertion. -/
abbrev Freq := List (UInt8 × Nat)

/-! ### The tree -/

/-- The key the heap compares: the frequency, then the smallest symbol of the subtree. -/
def KeyLe (a b : UInt8 × Nat) : Prop := a.2 < b.2 ∨ (a.2 = b.2 ∧ a.1 ≤ b.1)

instance : DecidableRel KeyLe := fun _ _ => inferInstanceAs (Decidable (_ ∨ _))

/-- A heap entry `(frequency, min_symbol, node)`. -/
structure HeapEntry where
  freq : Nat
  minSymbol : UInt8
  node : Node
deriving DecidableEq, Repr

/-- The order of heap entries. -/
def HeapEntry.Le (a b : HeapEntry) : Prop := KeyLe (a.minSymbol, a.freq) (b.minSymbol, b.freq)

instance : DecidableRel HeapEntry.Le := fun _ _ => inferInstanceAs (Decidable (KeyLe _ _))

/-- The heap of the leaves, smallest entry first. -/
def heapify (freq : Freq) : List HeapEntry :=
  (freq.insertionSort KeyLe).map fun entry =>
    { freq := entry.2, minSymbol := entry.1, node := .leaf entry.1 }

/-- `heappush`. -/
def heappush (heap : List HeapEntry) (entry : HeapEntry) : List HeapEntry :=
  heap.orderedInsert HeapEntry.Le entry

/-- The entry of the subtree made from two popped entries. -/
def HeapEntry.merge (a b : HeapEntry) : HeapEntry :=
  { freq := a.freq + b.freq
    minSymbol := min a.minSymbol b.minSymbol
    node := .branch a.node b.node }

/-- The loop `while len(heap) > 1`. Each round shortens the heap by one, so as many rounds as the heap
has entries are enough. -/
def mergeLoop : Nat → List HeapEntry → List HeapEntry
  | rounds + 1, a :: b :: heap => mergeLoop rounds (heappush heap (a.merge b))
  | _, heap => heap

/-- `_build_tree`. An empty map has no `heap[0]`. -/
def buildTree (freq : Freq) : Except Exn Node :=
  match mergeLoop freq.length (heapify freq) with
  | [] => .error (.indexError "list index out of range")
  | entry :: _ => .ok entry.node

/-- `<` on the tuples of two entries. On a tie of frequency and smallest symbol it comes to the nodes, which
have no order. -/
def HeapEntry.lt (a b : HeapEntry) : Except Exn Bool :=
  if a.freq ≠ b.freq then .ok (a.freq < b.freq)
  else if a.minSymbol ≠ b.minSymbol then .ok (a.minSymbol < b.minSymbol)
  else .error (.typeError "'<' not supported between instances of '_Node' and '_Node'")

/-- The entries of the leaves, in the order of the map. -/
def leafEntries (freq : Freq) : List HeapEntry :=
  freq.map fun entry => { freq := entry.2, minSymbol := entry.1, node := .leaf entry.1 }

/-- `_build_tree` with `heapq` known by its laws alone: the comparisons it makes may fail. -/
def buildTreeWith (heapq : PriorityQueue.Queue HeapEntry.lt) (freq : Freq) : Except Exn Node := do
  let heap ← heapq.heapify (leafEntries freq)
  match ← heapq.mergeRounds HeapEntry.merge freq.length heap with
  | [] => .error (.indexError "list index out of range")
  | entry :: _ => .ok entry.node

/-! ### Codes and bits -/

/-- `_build_codes`. A tree that is a single leaf still gets a code of one bit. -/
def buildCodes : Node → List Bool → List (UInt8 × List Bool)
  | .leaf symbol, path => [(symbol, if path = [] then [false] else path)]
  | .branch left right, path =>
      buildCodes left (path ++ [false]) ++ buildCodes right (path ++ [true])

/-- The bits of an octet, most significant first. -/
def octetBits (byte : UInt8) : List Bool :=
  [7, 6, 5, 4, 3, 2, 1, 0].map fun bit => byte.toNat.testBit bit

/-- `int(bits, 2)`. -/
def intBase2 (bits : List Bool) : Nat := bits.foldl (fun acc bit => acc * 2 + bit.toNat) 0

/-- Groups of eight bits as octets. -/
def packOctets : Nat → List Bool → Bytes
  | 0, _ => []
  | octets + 1, bits => UInt8.ofNat (intBase2 (bits.take 8)) :: packOctets octets (bits.drop 8)

/-- `_pack_bits`: zeros fill the last octet. -/
def packBits (bits : List Bool) : Bytes :=
  let padded := bits ++ List.replicate ((8 - bits.length % 8) % 8) false
  packOctets (padded.length / 8) padded

/-! ### compress -/

/-- `Counter(data)`. -/
def counter (data : Bytes) : Freq := data.eraseDups.map fun symbol => (symbol, data.count symbol)

/-- `n.to_bytes(width, "big")`. -/
def toBytes (n width : Nat) : Except Exn Bytes :=
  if n < 256 ^ width then .ok (toBytesBE width n)
  else .error (.overflowError "int too big to convert")

/-- `sorted(freq)`, each symbol with its frequency. -/
def sortedFreq (freq : Freq) : Freq := freq.insertionSort fun a b => a.1 ≤ b.1

/-- One row of the frequency table: the symbol followed by its frequency. -/
def freqRow (entry : UInt8 × Nat) : Except Exn Bytes := do
  return entry.1 :: (← toBytes entry.2 4)

/-- The frequency table. -/
def freqTable (freq : Freq) : Except Exn Bytes := do
  return (← (sortedFreq freq).mapM freqRow).flatten

/-- `codes[symbol]`. -/
def codeOf (codes : List (UInt8 × List Bool)) (symbol : UInt8) : Except Exn (List Bool) :=
  match codes.lookup symbol with
  | some code => .ok code
  | none => .error (.keyError (toString symbol.toNat))

/-- The codes of the data, one after the other. -/
def encodeBits (codes : List (UInt8 × List Bool)) (data : Bytes) : Except Exn (List Bool) := do
  return (← data.mapM (codeOf codes)).flatten

/-- Compress `data` into a self-describing Huffman blob. -/
def compress (data : Bytes) : Except Exn Bytes := do
  let header ← toBytes data.length 4
  if data = [] then return header ++ (← toBytes 0 2)
  let freq := counter data
  let count ← toBytes freq.length 2
  let table ← freqTable freq
  let tree ← buildTree freq
  let bits ← encodeBits (buildCodes tree []) data
  return header ++ count ++ table ++ packBits bits

/-! ### decompress -/

/-- `freq[symbol] = value`: a symbol that is present keeps its place. -/
def setFreq (freq : Freq) (symbol : UInt8) (value : Nat) : Freq :=
  if symbol ∈ freq.map Prod.fst then
    freq.map fun entry => if entry.1 = symbol then (symbol, value) else entry
  else freq ++ [(symbol, value)]

/-- Read the frequency table. The rest of the blob takes the place of the position; a frequency may be
cut short by the end of the blob, a symbol may not. -/
def readFreqs : Nat → Bytes → Freq → Except Exn (Freq × Bytes)
  | 0, rest, freq => .ok (freq, rest)
  | _ + 1, [], _ => .error (.indexError "index out of range")
  | count + 1, symbol :: rest, freq =>
      readFreqs count (rest.drop 4) (setFreq freq symbol (ofBytesBE (rest.take 4)))

/-- Walk the tree bit by bit, from `node`, with the output so far. The walk ends when the output has
the recorded length, or with the bits. -/
def walk (root : Node) (length : Nat) : Node → Bytes → List Bool → Bytes
  | _, result, [] => result
  | node, result, bit :: bits =>
      match node.child bit with
      | .leaf symbol =>
          if (result ++ [symbol]).length = length then result ++ [symbol]
          else walk root length root (result ++ [symbol]) bits
      | .branch left right => walk root length (.branch left right) result bits

/-- Invert `compress`. -/
def decompress (blob : Bytes) : Except Exn Bytes := do
  let length := ofBytesBE (blob.take 4)
  let count := ofBytesBE ((blob.drop 4).take 2)
  if length = 0 then return []
  let (freq, payload) ← readFreqs count ((blob.drop 4).drop 2) []
  match ← buildTree freq with
  | .leaf symbol => return List.replicate length symbol
  | .branch left right =>
      return walk (.branch left right) length (.branch left right) [] (payload.flatMap octetBits)

end Huffman

end Priestly
