/-
Module: Priestly.Crypto.Covenant
Layer: Crypto
Purpose: The PAKE primitives of `crypto/covenant.py`. The module constants `P`, `G` and
  `ELEMENT_BYTES` form a record, of which the RFC 3526 group is one value; a group element is a
  number below `P`, so every element fits the wire width.
Imports: Priestly.Lib.Euclid, Priestly.Crypto.Sha1, Priestly.Crypto.Hkdf
Trusted boundary: none
Main exports: ModpGroup, group14, extendedGcd, modinv, secretToElement, publicElement, commitDigest,
  mask, unmask, sharedSecret, confirmMac, SessionKeys, deriveSessionKeys
-/
import Priestly.Lib.Euclid
import Priestly.Crypto.Sha1
import Priestly.Crypto.Hkdf

namespace Priestly

open ByteCodec

/-- The public parameters: modulus, generator, and the wire width of an element. -/
structure ModpGroup where
  P : Nat
  G : Nat
  elementBytes : Nat
  one_lt_P : 1 < P
  P_le : P ≤ 256 ^ elementBytes

/-- A residue modulo `P`. -/
abbrev ModpGroup.Element (grp : ModpGroup) := Fin grp.P

/-- RFC 3526 group 14, the group every node hardcodes. -/
def group14 : ModpGroup where
  P := 0xFFFFFFFFFFFFFFFFC90FDAA22168C234C4C6628B80DC1CD129024E088A67CC74020BBEA63B139B22514A08798E3404DDEF9519B3CD3A431B302B0A6DF25F14374FE1356D6D51C245E485B576625E7EC6F44C42E9A637ED6B0BFF5CB6F406B7EDEE386BFB5A899FA5AE9F24117C4B1FE649286651ECE45B3DC2007CB8A163BF0598DA48361C55D39A69163FA8FD24CF5F83655D23DCA3AD961C62F356208552BB9ED529077096966D670C354E4ABC9804F1746C08CA18217C32905E462E36CE3BE39E772C180E86039B2783A2EC07A28FB5C55DF06F4C52C9DE2BCBF6955817183995497CEA956AE515D2261898FA051015728E5A8AACAA68FFFFFFFFFFFFFFFF
  G := 2
  elementBytes := 256
  one_lt_P := by norm_num
  P_le := by norm_num

/-! ### Modular inverse -/

/-- The loop of `extended_gcd`, with Python's floor division. -/
def extendedGcd (a b : Int) : Int × Int × Int :=
  IntDivision.floor.loop a b 1 0 0 1

/-- Modular multiplicative inverse of `a` mod `m`. -/
def modinv (a m : Int) : Except Exn Int :=
  let (g, x, _) := extendedGcd (a.fmod m) m
  if g ≠ 1 then .error (.valueError "no modular inverse exists")
  else .ok (x.fmod m)

section Elements

variable (grp : ModpGroup)

theorem ModpGroup.P_pos : 0 < grp.P := Nat.zero_lt_of_lt grp.one_lt_P

/-- `n % P`. -/
def ModpGroup.reduce (n : Nat) : grp.Element := ⟨n % grp.P, Nat.mod_lt _ grp.P_pos⟩

/-- `x.to_bytes(ELEMENT_BYTES, "big")`. An element is below `P`, so nothing is cut off. -/
def ModpGroup.toBytes (x : grp.Element) : Bytes := toBytesBE grp.elementBytes x.val

/-! ### Password to group element -/

/-- `_MAP_LABEL`. -/
def mapLabel : Bytes := asciiBytes "Priestly-Covenant-Map"

/-- Map a shared secret into the group: the MAC of a fixed label under the password, reduced, moved
off zero, and squared. -/
def secretToElement (mac : Mac) (password : Bytes) : grp.Element :=
  let h := mac password mapLabel
  let reduced := ofBytesBE h % grp.P
  let val := if reduced = 0 then 1 else reduced
  grp.reduce (val ^ 2)

/-! ### Ephemeral keys and the shared secret -/

/-- `random_exponent` draws from `[1, P - 1)`. -/
def IsExponent (a : Nat) : Prop := 1 ≤ a ∧ a ≤ grp.P - 2

instance (a : Nat) : Decidable (IsExponent grp a) := inferInstanceAs (Decidable (_ ∧ _))

/-- `G^exponent mod P`. -/
def publicElement (exponent : Nat) : grp.Element := grp.reduce (grp.G ^ exponent)

/-- SHA-1 commitment to a public element. -/
def commitDigest (elt : grp.Element) : Bytes := sha1 (grp.toBytes elt)

/-- Server side: `(B * PE) mod P`. -/
def mask (publicB pe : grp.Element) : grp.Element := grp.reduce (publicB.val * pe.val)

/-- Client side: `(masked_b * PE^-1) mod P`. -/
def unmask (maskedB pe : grp.Element) : Except Exn grp.Element := do
  let inverse ← modinv pe.val grp.P
  return grp.reduce (maskedB.val * inverse.toNat)

/-- `peer_public^own_exponent mod P`. -/
def sharedSecret (peerPublic : grp.Element) (ownExponent : Nat) : grp.Element :=
  grp.reduce (peerPublic.val ^ ownExponent)

/-! ### Key confirmation -/

/-- The key-confirmation tag: keyed by the shared secret and bound to the commitment, the role of
the sender, and the sender's public element. -/
def confirmMac (mac : Mac) (shared : grp.Element) (commit role : Bytes) (elt : grp.Element) :
    Bytes :=
  mac (grp.toBytes shared) (commit ++ role ++ grp.toBytes elt)

/-- The key and the message of that tag. -/
def confirmInput (shared : grp.Element) (commit role : Bytes) (elt : grp.Element) : Bytes × Bytes :=
  (grp.toBytes shared, commit ++ role ++ grp.toBytes elt)

end Elements

/-- The role labels. -/
def clientRole : Bytes := asciiBytes "client"

def serverRole : Bytes := asciiBytes "server"

/-! ### Session keys -/

/-- The four directional subkeys. -/
structure SessionKeys where
  clientWrite : Bytes
  serverWrite : Bytes
  clientMac : Bytes
  serverMac : Bytes
deriving DecidableEq, Repr

/-- Expand the shared secret into the four subkeys. -/
def deriveSessionKeys (grp : ModpGroup) (mac : Mac) (shared : grp.Element) :
    Except Exn SessionKeys := do
  let prk := grp.toBytes shared
  let clientWrite ← hkdfExpand mac prk (asciiBytes "Priestly-v1-client-write") 32
  let serverWrite ← hkdfExpand mac prk (asciiBytes "Priestly-v1-server-write") 32
  let clientMac ← hkdfExpand mac prk (asciiBytes "Priestly-v1-client-mac") 32
  let serverMac ← hkdfExpand mac prk (asciiBytes "Priestly-v1-server-mac") 32
  return { clientWrite, serverWrite, clientMac, serverMac }

/-- One labelled subkey. -/
def subkey (grp : ModpGroup) (mac : Mac) (shared : grp.Element) (label : String) : Bytes :=
  (mac (grp.toBytes shared) (asciiBytes label ++ [1])).take 32

/-- The subkeys of a shared secret. -/
def sessionKeys (grp : ModpGroup) (mac : Mac) (shared : grp.Element) : SessionKeys where
  clientWrite := subkey grp mac shared "Priestly-v1-client-write"
  serverWrite := subkey grp mac shared "Priestly-v1-server-write"
  clientMac := subkey grp mac shared "Priestly-v1-client-mac"
  serverMac := subkey grp mac shared "Priestly-v1-server-mac"

/-- The derivation never fails: each subkey is one block. -/
@[simp] theorem deriveSessionKeys_eq (grp : ModpGroup) (mac : Mac) (shared : grp.Element) :
    deriveSessionKeys grp mac shared = .ok (sessionKeys grp mac shared) := by
  simp only [deriveSessionKeys, hkdfExpand_one_block]
  rfl

/-! ### Wire width -/

section Wire

variable (grp : ModpGroup)

@[simp] theorem ModpGroup.length_toBytes (x : grp.Element) :
    (grp.toBytes x).length = grp.elementBytes := by
  simp [ModpGroup.toBytes]

theorem ModpGroup.val_lt (x : grp.Element) : x.val < 256 ^ grp.elementBytes :=
  Nat.lt_of_lt_of_le x.isLt grp.P_le

/-- The wire form determines the element. -/
theorem ModpGroup.toBytes_injective : Function.Injective grp.toBytes := by
  intro x y h
  exact Fin.ext (toBytesBE_injOn (grp.val_lt x) (grp.val_lt y) h)

theorem ModpGroup.ofBytesBE_toBytes (x : grp.Element) : ofBytesBE (grp.toBytes x) = x.val :=
  ofBytesBE_toBytesBE_of_lt (grp.val_lt x)

@[simp] theorem length_commitDigest (elt : grp.Element) :
    (commitDigest grp elt).length = 20 := by
  simp [commitDigest]

end Wire

end Priestly
