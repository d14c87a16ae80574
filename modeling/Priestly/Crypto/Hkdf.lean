/-
Module: Priestly.Crypto.Hkdf
Layer: Crypto
Purpose: HKDF-Expand of `crypto/hkdf.py` over the MAC of the standard library, which every keyed
  function of the program takes as a parameter.
Imports: Mathlib.Data.Set.Function, Priestly.Python.Builtins
Trusted boundary: none
Main exports: Mac, CollisionFree, hkdfExpand, hkdfExpand_one_block
-/
import Mathlib.Data.Set.Function
import Priestly.Python.Builtins

namespace Priestly

open ByteCodec

/-- `hmac_sha256.sign_bytes`: the raw tag of `data` under `key`. -/
abbrev Mac := Bytes → Bytes → Bytes

/-- Distinct (key, message) pairs among the inputs have distinct tags. HMAC pads its keys with zeros and its
tags are short, so it can hold of some inputs only: of those that a run computes. -/
def CollisionFree (mac : Mac) (inputs : Set (Bytes × Bytes)) : Prop :=
  Set.InjOn (fun input => mac input.1 input.2) inputs

/-- `hmac_sha256.sign`: the tag in hexadecimal. -/
def sign (mac : Mac) (key data : Bytes) : String := hexString (mac key data)

/-- The octets of an ASCII literal such as `b"client"`. -/
def asciiBytes (text : String) : Bytes := text.toList.map fun c => UInt8.ofNat c.toNat

/-- `_HASH_LEN`. -/
def hashLen : Nat := 32

/-- The expansion loop: each block is the MAC of the previous block, the label and a counter. -/
def hkdfLoop (mac : Mac) (prk info : Bytes) : Nat → Nat → Bytes → Bytes → Bytes
  | 0, _, _, okm => okm
  | steps + 1, counter, previous, okm =>
      let block := mac prk (previous ++ info ++ [UInt8.ofNat counter])
      hkdfLoop mac prk info steps (counter + 1) block (okm ++ block)

/-- Expand `prk` into `length` octets bound to the label `info`. -/
def hkdfExpand (mac : Mac) (prk info : Bytes) (length : Int) : Except Exn Bytes :=
  if length < 0 then .error (.valueError "length must be non-negative")
  else
    let n := (length.toNat + hashLen - 1) / hashLen
    if 255 < n then .error (.valueError "requested length too large for HKDF-Expand")
    else .ok ((hkdfLoop mac prk info n 1 [] []).take length.toNat)

/-- A request of one hash length needs one block. -/
theorem hkdfExpand_one_block (mac : Mac) (prk info : Bytes) :
    hkdfExpand mac prk info 32 = .ok ((mac prk (info ++ [1])).take 32) := by
  simp [hkdfExpand, hkdfLoop, hashLen]

end Priestly
