/-
Module: Priestly.Protocol.ByteLink
Layer: Protocol
Purpose: Two drivers at the two ends of a connection, each over its own `WebSocket`. What one end writes is
  bytes on their way to the other, where they arrive in pieces of any size; an end reads when the bytes of a
  message have arrived. Nothing is assumed of the order in which ends and network take their steps.
Imports: Priestly.Lib.Refinement, Priestly.Protocol.Covenant, Priestly.Transport.Receive
Trusted boundary: the connection is not closed and loses no bytes
Main exports: TransportExn.raised, PipeEnd, EndStep, ByteLink, ByteStep, ByteLink.start
-/
import Priestly.Lib.Refinement
import Priestly.Protocol.Covenant
import Priestly.Transport.Receive

namespace Priestly

open ByteCodec Interaction

/-! ### What a driver sees of the transport layer -/

/-- The text of a `ConnectionClosed`. -/
def closedText (rt : Runtime) (code : Option Nat) (reason : String) : String :=
  let codeText := match code with
    | none => "None"
    | some code => toString code
  s!"connection closed (code={codeText}, reason={rt.strRepr reason})"

/-- An exception of the transport layer, as the code above it meets it. The opening handshake alone raises
the `UnicodeEncodeError`, which is a `ValueError`. -/
def TransportExn.raised (rt : Runtime) : TransportExn → Exn
  | .connectionClosed code reason => .connectionClosed (closedText rt code reason)
  | .protocolError text => .wsProtocolError text
  | .osError text => .osError text
  | .structError text => .structError text
  | .overflowError text => .overflowError text
  | .memoryError => .memoryError
  | .unicodeDecodeError object => .unicodeDecodeError (rt.unicodeErrorText object)
  | .unicodeEncodeError object => .valueError s!"cannot encode {rt.strRepr object}"

namespace WsEndpoint

/-- `ws.send(text)`. -/
def send (text : String) : WsM Unit := sendFrame .text (utf8Encode text)

/-- More bytes have arrived. -/
def arrive (more : List (Piece UInt8)) (ep : WsEndpoint) : WsEndpoint :=
  { ep with sock := { ep.sock with pieces := ep.sock.pieces ++ more } }

/-- What a call has written. -/
def emitted (before after : WsEndpoint) : Bytes :=
  after.sock.written.drop before.sock.written.length

end WsEndpoint

/-! ### One end -/

/-- What is left of a driver, and the `WebSocket` it runs over. -/
structure PipeEnd (α : Type) where
  program : Driver α
  ep : WsEndpoint

section Ends

variable (rt : Runtime) {α : Type}

/-- A step of a driver, with the bytes that leave its end. A read that lacks bytes waits, where the socket of
the model would report the end of the stream; so a read that raises is a step only when it raises whatever
arrives later. -/
inductive EndStep : PipeEnd α → Bytes → PipeEnd α → Prop where
  | sent {frame : Frame} {next : Option Exn → Driver α} {ep ep' : WsEndpoint}
      (call : WsEndpoint.send (dumps rt frame) ep = .ok () ep') :
      EndStep ⟨.send frame next, ep⟩ (ep.emitted ep') ⟨next none, ep'⟩
  | sendRaised {frame : Frame} {next : Option Exn → Driver α} {ep ep' : WsEndpoint} {exn : TransportExn}
      (call : WsEndpoint.send (dumps rt frame) ep = .error exn ep') :
      EndStep ⟨.send frame next, ep⟩ (ep.emitted ep') ⟨next (some (exn.raised rt)), ep'⟩
  | received {next : Except Exn WsMessage → Driver α} {ep ep' : WsEndpoint} {message : WsMessage}
      (call : WsEndpoint.recv ep = .ok message ep') :
      EndStep ⟨.recv next, ep⟩ (ep.emitted ep') ⟨next (.ok message), ep'⟩
  | recvRaised {next : Except Exn WsMessage → Driver α} {ep ep' : WsEndpoint} {exn : TransportExn}
      (call : WsEndpoint.recv ep = .error exn ep')
      (settled : ∀ more, ∃ ep'', WsEndpoint.recv (ep.arrive more) = .error exn ep'') :
      EndStep ⟨.recv next, ep⟩ (ep.emitted ep') ⟨next (.error (exn.raised rt)), ep'⟩

end Ends

/-! ### Two ends -/

/-- Two ends with the bytes on their way to each. -/
structure ByteLink (α β : Type) where
  left : PipeEnd α
  right : PipeEnd β
  toLeft : Bytes
  toRight : Bytes

/-- One step of the connection: an end takes one, or bytes arrive at an end. -/
inductive ByteStep (rt : Runtime) {α β : Type} : ByteLink α β → ByteLink α β → Prop where
  | left {left left' : PipeEnd α} {right : PipeEnd β} {toLeft toRight bytes : Bytes}
      (step : EndStep rt left bytes left') :
      ByteStep rt ⟨left, right, toLeft, toRight⟩ ⟨left', right, toLeft, toRight ++ bytes⟩
  | right {left : PipeEnd α} {right right' : PipeEnd β} {toLeft toRight bytes : Bytes}
      (step : EndStep rt right bytes right') :
      ByteStep rt ⟨left, right, toLeft, toRight⟩ ⟨left, right', toLeft ++ bytes, toRight⟩
  | arriveLeft {left : PipeEnd α} {right : PipeEnd β} {piece : Piece UInt8} {toLeft toRight : Bytes} :
      ByteStep rt ⟨left, right, piece.items ++ toLeft, toRight⟩
        ⟨{ left with ep := left.ep.arrive [piece] }, right, toLeft, toRight⟩
  | arriveRight {left : PipeEnd α} {right : PipeEnd β} {piece : Piece UInt8} {toLeft toRight : Bytes} :
      ByteStep rt ⟨left, right, toLeft, piece.items ++ toRight⟩
        ⟨left, { right with ep := right.ep.arrive [piece] }, toLeft, toRight⟩

/-- Both drivers at their start, no bytes on the way. -/
def ByteLink.start {α β : Type} (left : Driver α) (right : Driver β) (leftEp rightEp : WsEndpoint) :
    ByteLink α β :=
  { left := ⟨left, leftEp⟩, right := ⟨right, rightEp⟩, toLeft := [], toRight := [] }

end Priestly
