/-
Module: Priestly.Transport.WireFrame
Layer: Transport
Purpose: The frames of RFC 6455 as they stand on the wire, independent of the code that writes or reads
  them: the header with one of three forms of the payload length, the masking key, and the payload.
Imports: Priestly.Transport.Receive
Trusted boundary: none
Main exports: LengthForm, WireHeader, WireFrame, WireFrame.bytes
-/
import Priestly.Transport.Receive

namespace Priestly

open ByteCodec

/-- Where a frame says how long its payload is: in the second byte, or in two or eight bytes behind
it. -/
inductive LengthForm where
  | short
  | medium
  | long
deriving DecidableEq, Repr

namespace LengthForm

/-- The lengths a form can express. -/
def Fits : LengthForm → Nat → Prop
  | short, length => length < 126
  | medium, length => length < 256 ^ 2
  | long, length => length < 256 ^ 8

instance : (form : LengthForm) → (length : Nat) → Decidable (form.Fits length)
  | short, length => inferInstanceAs (Decidable (length < 126))
  | medium, length => inferInstanceAs (Decidable (length < 256 ^ 2))
  | long, length => inferInstanceAs (Decidable (length < 256 ^ 8))

/-- The seven bits of the second byte. -/
def code : LengthForm → Nat → Nat
  | short, length => length
  | medium, _ => 126
  | long, _ => 127

/-- The bytes behind the second one. -/
def extension : LengthForm → Nat → Bytes
  | short, _ => []
  | medium, length => toBytesBE 2 length
  | long, length => toBytesBE 8 length

end LengthForm

/-- The first byte: FIN, three reserved bits that are zero, and the opcode. -/
def firstByte (fin : Bool) (opcode : Opcode) : UInt8 := (if fin then 0x80 else 0x00) ||| opcode.code

/-- The second byte: the mask bit and seven bits of length. -/
def secondByte (masked : Bool) (length : Nat) : UInt8 :=
  (if masked then 0x80 else 0x00) ||| UInt8.ofNat length

/-- The header of a frame. A control frame is final, and short enough for the second byte. -/
structure WireHeader where
  fin : Bool
  opcode : Opcode
  form : LengthForm
  length : Nat
  mask : Option MaskingKey
  fits : form.Fits length
  control : opcode.isControl = true → fin = true ∧ form = .short

namespace WireHeader

/-- The masking key on the wire. -/
def keyBytes (header : WireHeader) : Bytes := (header.mask.map Vector.toList).getD []

/-- The bytes of a header. -/
def bytes (header : WireHeader) : Bytes :=
  firstByte header.fin header.opcode ::
    secondByte header.mask.isSome (header.form.code header.length) ::
      (header.form.extension header.length ++ header.keyBytes)

end WireHeader

/-- A frame: a header and the payload it announces, here without its mask. -/
structure WireFrame where
  header : WireHeader
  payload : Bytes
  complete : payload.length = header.length

namespace WireFrame

/-- What `read_frame` is to return for the frame. -/
def content (frame : WireFrame) : WsFrame where
  fin := frame.header.fin
  opcode := frame.header.opcode
  payload := frame.payload

/-- The payload on the wire. -/
def body (frame : WireFrame) : Bytes :=
  match frame.header.mask with
  | none => frame.payload
  | some key => applyMask key frame.payload

/-- The bytes of a frame. -/
def bytes (frame : WireFrame) : Bytes := frame.header.bytes ++ frame.body

/-- The bytes of frames that follow each other. -/
def stream (frames : List WireFrame) : Bytes := frames.flatMap bytes

end WireFrame

end Priestly
