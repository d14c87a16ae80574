/-
Module: Priestly.Protocol.Session
Layer: Protocol
Purpose: Per-packet security of `protocol/session.py`: the compression marker, the tag over the
  header and the payload, and the session state whose `seal` and `open` carry the sequence numbers.
  Each operation returns its result together with the state it leaves, also when it raises.
Imports: Priestly.Crypto.Covenant, Priestly.Crypto.Huffman, Priestly.Python.Base64,
  Priestly.Protocol.Packets
Trusted boundary: none
Main exports: pack, unpack, computeTag, SessionState, SessionState.seal, SessionState.open
-/
import Priestly.Crypto.Covenant
import Priestly.Crypto.Huffman
import Priestly.Python.Base64
import Priestly.Protocol.Packets

namespace Priestly

open ByteCodec

/-- `_STORED`: the payload follows verbatim. -/
def storedMarker : UInt8 := 0

/-- `_HUFFMAN`: the payload is compressed. -/
def huffmanMarker : UInt8 := 1

/-- Prefix a compression marker, compressing only when that shrinks the payload. -/
def pack (plaintext : Bytes) : Except Exn Bytes := do
  let compressed ← Huffman.compress plaintext
  if compressed.length < plaintext.length then return huffmanMarker :: compressed
  return storedMarker :: plaintext

/-- Invert `pack`; reject an unknown or empty marker. -/
def unpack : Bytes → Except Exn Bytes
  | [] => .error (.authenticationError "empty sealed payload")
  | marker :: body =>
      if marker = huffmanMarker then Huffman.decompress body
      else if marker = storedMarker then .ok body
      else .error (.authenticationError s!"unknown compression marker 0x{hexString [marker]}")

/-- `b"C" if direction == "client" else b"S"`. -/
def directionByte (direction : String) : UInt8 := if direction = "client" then 0x43 else 0x53

/-- What a tag authenticates: epoch, sequence number, direction, payload. -/
def tagMessage (epoch seq : Int) (direction : String) (payload : Bytes) : Except Exn Bytes := do
  let epochBytes ← structPackQ epoch
  let seqBytes ← structPackQ seq
  return epochBytes ++ seqBytes ++ [directionByte direction] ++ payload

/-- Per-packet authentication tag, in hexadecimal. -/
def computeTag (mac : Mac) (macKey : Bytes) (epoch seq : Int) (direction : String)
    (payload : Bytes) : Except Exn String := do
  return sign mac macKey (← tagMessage epoch seq direction payload)

/-- The two sides of a connection. -/
inductive Role where
  | client
  | server
deriving DecidableEq, Repr

/-- The side a side talks to. -/
def Role.peer : Role → Role
  | .client => .server
  | .server => .client

/-- Sending and receiving state for one authenticated connection. -/
structure SessionState where
  isClient : Bool
  compress : Bool
  txDir : String
  rxDir : String
  txMac : Bytes
  rxMac : Bytes
  txSeq : Int
  rxSeq : Int
  epoch : Int
deriving DecidableEq, Repr

namespace SessionState

/-- `SessionState(keys, is_client=..., compress=...)`. -/
def new (keys : SessionKeys) (isClient compress : Bool) : SessionState where
  isClient := isClient
  compress := compress
  txDir := if isClient then "client" else "server"
  rxDir := if isClient then "server" else "client"
  txMac := if isClient then keys.clientMac else keys.serverMac
  rxMac := if isClient then keys.serverMac else keys.clientMac
  txSeq := 0
  rxSeq := 0
  epoch := 0

/-- The payload body a session sends for a plaintext. -/
def body (s : SessionState) (plaintext : Bytes) : Except Exn Bytes :=
  if s.compress then pack plaintext else .ok (storedMarker :: plaintext)

/-- The frame for a plaintext under the sequence number the state carries. -/
def sealAt (s : SessionState) (mac : Mac) (plaintext : Bytes) : Except Exn SealedFrame := do
  let body ← s.body plaintext
  let tag ← computeTag mac s.txMac s.epoch s.txSeq s.txDir body
  return { epoch := s.epoch, seq := s.txSeq, direction := s.txDir, payload := b64encode body, tag }

/-- Compress, authenticate, and sequence a plaintext payload. The counter moves first, so it has
moved even when sealing raises. -/
def «seal» (s : SessionState) (mac : Mac) (plaintext : Bytes) :
    Except Exn SealedFrame × SessionState :=
  let s' := { s with txSeq := s.txSeq + 1 }
  (s'.sealAt mac plaintext, s')

/-- The checks of `open` up to the sequence number; they leave the state alone. -/
def verify (s : SessionState) (rt : Runtime) (frame : SealedFrame) : Except Exn Bytes :=
  if frame.direction ≠ s.rxDir then
    .error (.authenticationError s!"expected {rt.strRepr s.rxDir} frame, got {rt.strRepr frame.direction}")
  else match b64decode frame.payload with
    | .error exn =>
        .error (.authenticationError s!"payload is not valid base64: {exn.str}")
    | .ok body => do
        let expected ← computeTag rt.hmac s.rxMac frame.epoch frame.seq frame.direction body
        if !(← compareDigest expected frame.tag) then
          .error (.authenticationError "authentication tag does not verify")
        else if frame.seq ≤ s.rxSeq then
          .error (.replayError s!"stale sequence number {frame.seq} (last seen {s.rxSeq})")
        else .ok body

/-- Verify and decompress an incoming sealed frame. The sequence number is recorded before the payload
is unpacked. -/
def «open» (s : SessionState) (rt : Runtime) (frame : SealedFrame) :
    Except Exn Bytes × SessionState :=
  match s.verify rt frame with
  | .error exn => (.error exn, s)
  | .ok body => (unpack body, { s with rxSeq := frame.seq })

end SessionState

end Priestly
