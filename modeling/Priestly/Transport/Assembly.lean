/-
Module: Priestly.Transport.Assembly
Layer: Transport
Purpose: The reassembly of messages on whole frames: what each frame does to the message under assembly,
  and how far one call of `recv` gets in a sequence of frames. Beside it the message grammar of RFC 6455.
Imports: Priestly.Transport.WireFrame
Trusted boundary: none
Main exports: Gathered, WsFrame.effect, assemble, IsFragmentation, Carries, Interrupted
-/
import Priestly.Transport.WireFrame

namespace Priestly

open ByteCodec

/-! ### The machine -/

/-- A message under assembly: the opcode it will be returned under, and the payloads so far. -/
structure Gathered where
  opcode : Opcode
  data : Bytes
deriving DecidableEq, Repr

/-- What a frame does. -/
inductive FrameEffect where
  | skip
  | answer
  | close
  | orphan
  | more (message : Gathered)
  | complete (message : Gathered)
deriving DecidableEq, Repr

namespace WsFrame

/-- A data frame extends the message, and ends it when it is final. -/
def extend (frame : WsFrame) (opcode : Opcode) (data : Bytes) : FrameEffect :=
  if frame.fin then .complete { opcode, data := data ++ frame.payload }
  else .more { opcode, data := data ++ frame.payload }

/-- The payloads of the message under assembly, if there is one. -/
def gatheredData (pending : Option Gathered) : Bytes := (pending.map Gathered.data).getD []

/-- What a frame does while a message may be under assembly. A text or binary frame that arrives
meanwhile goes on with the message, under its own opcode. -/
def effect (frame : WsFrame) (pending : Option Gathered) : FrameEffect :=
  match frame.opcode with
  | .close => .close
  | .ping => .answer
  | .pong => .skip
  | .text => frame.extend .text (gatheredData pending)
  | .binary => frame.extend .binary (gatheredData pending)
  | .cont =>
      match pending with
      | none => .orphan
      | some message => frame.extend message.opcode message.data

/-- Not a control frame. -/
def isData (frame : WsFrame) : Bool := !frame.opcode.isControl

end WsFrame

/-- How a call of `recv` ends. -/
inductive Outcome where
  | message (message : Gathered)
  | orphan
  | close (payload : Bytes)
  | exhausted (pending : Option Gathered)
deriving DecidableEq, Repr

/-- One call of `recv` on whole frames: how it ends, and the frames it leaves. -/
def assemble : Option Gathered → List WireFrame → Outcome × List WireFrame
  | pending, [] => (.exhausted pending, [])
  | pending, frame :: frames =>
      match frame.content.effect pending with
      | .skip | .answer => assemble pending frames
      | .close => (.close frame.payload, frames)
      | .orphan => (.orphan, frames)
      | .more message => assemble (some message) frames
      | .complete message => (.message message, frames)

/-! ### The message grammar -/

/-- The opcode and the bytes of a message. -/
def WsMessage.gathered : WsMessage → Gathered
  | .text content => { opcode := .text, data := utf8Encode content }
  | .binary data => { opcode := .binary, data }

/-- One frame with the message's opcode, continuation frames behind it, FIN on the last frame and only
there, and the bytes of the message in their payloads. -/
structure IsFragmentation (message : WsMessage) (fragments : List WsFrame) : Prop where
  opcodes : ∃ conts : Nat,
    fragments.map WsFrame.opcode = message.gathered.opcode :: List.replicate conts .cont
  fins : ∃ unfinished : Nat, fragments.map WsFrame.fin = List.replicate unfinished false ++ [true]
  payloads : (fragments.map WsFrame.payload).flatten = message.gathered.data

/-- The frames carry the messages: the data frames are the fragments of the messages one after the
other, and the frames between them are pings and pongs. -/
structure Carries (frames : List WsFrame) (messages : List WsMessage) : Prop where
  fragments : ∃ parts : List (List WsFrame), List.Forall₂ IsFragmentation messages parts ∧
    frames.filter WsFrame.isData = parts.flatten
  noClose : ∀ frame ∈ frames, frame.opcode ≠ .close

/-- Whether a fragmented message is open behind a frame, by the grammar alone. -/
def isOpenAfter (isOpen : Bool) (frame : WsFrame) : Bool :=
  match frame.opcode with
  | .close | .ping | .pong => isOpen
  | .text | .binary => !frame.fin
  | .cont => isOpen && !frame.fin

/-- Whether a fragmented message is open behind a sequence of frames. -/
def openAfter (isOpen : Bool) (frames : List WsFrame) : Bool := frames.foldl isOpenAfter isOpen

/-- A text or binary frame arrives while a fragmented message is open. -/
def Interrupted (frames : List WsFrame) : Prop :=
  ∃ before frame after, frames = before ++ frame :: after ∧ (∀ other ∈ before, other.opcode ≠ .close) ∧
    openAfter false before = true ∧ (frame.opcode = .text ∨ frame.opcode = .binary)

/-- A continuation frame arrives while no message is open. -/
def Orphaned (frames : List WsFrame) : Prop :=
  ∃ before frame after, frames = before ++ frame :: after ∧ (∀ other ∈ before, other.opcode ≠ .close) ∧
    openAfter false before = false ∧ frame.opcode = .cont

end Priestly
