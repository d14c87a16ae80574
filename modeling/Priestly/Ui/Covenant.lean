/-
Module: Priestly.Ui.Covenant
Layer: Ui
Purpose: `ui/covenant.js` up to the key derivation: modular arithmetic on BigInts, the byte helpers, and
  the PAKE primitives over WebCrypto.
Imports: Priestly.Js.Builtins, Priestly.Crypto.Covenant, Priestly.Python.Builtins
Trusted boundary: WebCrypto computes SHA-1 and the MAC the Python side computes, and rejects empty keys
Main exports: Ui.modPow, Ui.modinv, Ui.hexToBytes, Ui.secretToElement, Ui.confirmMac, Ui.deriveKeys
-/
import Priestly.Js.Builtins
import Priestly.Crypto.Covenant
import Priestly.Python.Builtins

namespace Priestly

namespace Ui

open ByteCodec Js

/-- A BigInt. -/
abbrev BigInt := Int

/-! ### The group -/

/-- The constants `P`, `G` and `ELEMENT_BYTES` of the script. -/
def group : ModpGroup where
  P := 0xffffffffffffffffc90fdaa22168c234c4c6628b80dc1cd129024e088a67cc74020bbea63b139b22514a08798e3404ddef9519b3cd3a431b302b0a6df25f14374fe1356d6d51c245e485b576625e7ec6f44c42e9a637ed6b0bff5cb6f406b7edee386bfb5a899fa5ae9f24117c4b1fe649286651ece45b3dc2007cb8a163bf0598da48361c55d39a69163fa8fd24cf5f83655d23dca3ad961c62f356208552bb9ed529077096966d670c354e4abc9804f1746c08ca18217c32905e462e36ce3be39e772c180e86039b2783a2ec07a28fb5c55df06f4c52c9de2bcbf6955817183995497cea956ae515d2261898fa051015728e5a8aacaa68ffffffffffffffff
  G := 2
  elementBytes := 256
  one_lt_P := group14.one_lt_P
  P_le := group14.P_le

/-- The page and the nodes hardcode the same group. -/
theorem group_eq : group = group14 := rfl

/-! ### BigInt and byte helpers -/

/-- The loop of `modPow`. -/
def modPowLoop (mod base r : BigInt) (exp : Nat) : BigInt :=
  if exp = 0 then r
  else
    modPowLoop mod ((base * base).tmod mod) (if exp % 2 = 1 then (r * base).tmod mod else r) (exp / 2)
termination_by exp
decreasing_by exact Nat.div_lt_self (Nat.pos_of_ne_zero ‹_›) (by decide)

/-- `modPow`. A negative exponent leaves the loop at once. -/
def modPow (base exp mod : BigInt) : BigInt := modPowLoop mod (base.tmod mod) 1 exp.toNat

/-- `egcd`. -/
def egcd (a b : BigInt) : BigInt × BigInt × BigInt := IntDivision.trunc.loop a b 1 0 0 1

/-- `modinv`. -/
def modinv (a m : BigInt) : Except JsError BigInt :=
  let (g, x, _) := egcd ((a.tmod m + m).tmod m) m
  if g ≠ 1 then .error (.error "no inverse") else .ok ((x.tmod m + m).tmod m)

/-- `bytesToBig`. -/
def bytesToBig (b : Bytes) : BigInt := (b.foldl (fun x v => (x <<< 8) ||| v.toNat) (0 : Nat) : Nat)

/-- `bigToBytes`. -/
def bigToBytes (x : BigInt) : Nat → Bytes
  | 0 => []
  | len + 1 => bigToBytes (x >>> (8 : Nat)) len ++ [UInt8.ofNat (x % 256).toNat]

/-- `hexToBytes`. The array has half the length of the string, rounded down. -/
def hexToBytes (h : String) : Bytes :=
  (List.range ((utf16 h).length / 2)).map fun i =>
    toUint8 (parseIntBase16 (((utf16 h).drop (i * 2)).take 2))

/-- `bytesToHex`. -/
def bytesToHex (b : Bytes) : String := .ofList (b.flatMap byteToHex)

/-! ### Hashing -/

/-- `hmac`. WebCrypto does not import an empty key. -/
def hmac (mac : Mac) (keyBytes dataBytes : Bytes) : Except JsError Bytes :=
  if keyBytes = [] then .error .dataError else .ok (mac keyBytes dataBytes)

/-! ### Covenant primitives -/

section Primitives

variable (grp : ModpGroup) (mac : Mac)

/-- `secretToElement`. -/
def secretToElement (pwBytes : Bytes) : Except JsError BigInt := do
  let h ← hmac mac pwBytes (utf8Encode "Priestly-Covenant-Map")
  let val := (bytesToBig h).tmod grp.P
  return modPow (if val = 0 then 1 else val) 2 grp.P

/-- `confirmMac`. -/
def confirmMac (shared : BigInt) (commit : Bytes) (role : String) (pub : BigInt) :
    Except JsError Bytes :=
  hmac mac (bigToBytes shared grp.elementBytes)
    (commit ++ utf8Encode role ++ bigToBytes pub grp.elementBytes)

/-- `hkdfExpand`, for lengths up to 32. -/
def hkdfExpand (prk info : Bytes) (length : Nat) : Except JsError Bytes := do
  let t ← hmac mac prk (info ++ [1])
  return t.take length

/-- The keys the page keeps. -/
structure Keys where
  clientMac : Bytes
  serverMac : Bytes
deriving DecidableEq, Repr

/-- `deriveKeys`. -/
def deriveKeys (shared : BigInt) : Except JsError Keys := do
  let prk := bigToBytes shared grp.elementBytes
  let clientMac ← hkdfExpand mac prk (utf8Encode "Priestly-v1-client-mac") 32
  let serverMac ← hkdfExpand mac prk (utf8Encode "Priestly-v1-server-mac") 32
  return { clientMac, serverMac }

end Primitives

end Ui

end Priestly
