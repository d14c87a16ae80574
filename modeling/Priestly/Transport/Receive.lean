/-
Module: Priestly.Transport.Receive
Layer: Transport
Purpose: The receiving half of `transport/ws.py`: `read_frame`, and `WebSocket.recv` with its loop over
  the frames of a message, the control frames it answers or skips, and its error paths.
Imports: Priestly.Transport.Socket, Priestly.Transport.Ws, Priestly.Protocol.Packets,
  Priestly.Python.Text
Trusted boundary: `urandom` stands for `os.urandom(4)`
Main exports: WsFrame, FrameHeader, parseHeader, readFrame, WsEndpoint, WsEndpoint.recv, recvCalls
-/
import Priestly.Protocol.Packets
import Priestly.Python.Text
import Priestly.Transport.Socket
import Priestly.Transport.Ws

namespace Priestly

open ByteCodec

/-! ### read_frame -/

namespace Opcode

/-- `_VALID_OPCODES`. -/
def valid : List Opcode := [cont, text, binary, close, ping, pong]

/-- The opcode with a number, where there is one. -/
def ofCode? (code : UInt8) : Option Opcode := valid.find? fun opcode => opcode.code = code

/-- `opcode in _CONTROL_OPCODES`. -/
def isControl : Opcode → Bool
  | close | ping | pong => true
  | cont | text | binary => false

end Opcode

/-- What `read_frame` returns. -/
structure WsFrame where
  fin : Bool
  opcode : Opcode
  payload : Bytes
deriving DecidableEq, Repr

/-- What the first two bytes of a frame say. The length is that of the second byte. -/
structure FrameHeader where
  fin : Bool
  opcode : Opcode
  masked : Bool
  length : Nat
deriving DecidableEq, Repr

/-- The checks of `read_frame` on the first two bytes. -/
def parseHeader (b0 b1 : UInt8) : Except TransportExn FrameHeader :=
  let fin : Bool := b0 &&& 0x80 ≠ 0
  if b0 &&& 0x70 ≠ 0 then .error (.protocolError "reserved bits must be zero")
  else
    match Opcode.ofCode? (b0 &&& 0x0F) with
    | none => .error (.protocolError s!"unknown opcode 0x{hexDigit (b0 &&& 0x0F).toNat}")
    | some opcode =>
        let masked : Bool := b1 &&& 0x80 ≠ 0
        let length := (b1 &&& 0x7F).toNat
        if opcode.isControl ∧ fin = false then
          .error (.protocolError "control frames must not be fragmented")
        else if opcode.isControl ∧ length > 125 then
          .error (.protocolError "control frame payload too large")
        else .ok { fin, opcode, masked, length }

/-- `bytes(b ^ masking_key[i % 4] for i, b in enumerate(payload))`, with a key of four bytes. -/
def xorMask (maskingKey payload : Bytes) : Bytes :=
  payload.mapIdx fun i b => b ^^^ maskingKey.getD (i % 4) 0

/-- The length of a payload: the one in the second byte, or the one that follows. -/
def readLength (length : Nat) : SocketM Nat :=
  if length = 126 then do return ofBytesBE (← Socket.recvExact 2)
  else if length = 127 then do return ofBytesBE (← Socket.recvExact 8)
  else return length

/-- The masking key of a frame, empty where there is none. -/
def readMaskingKey (masked : Bool) : SocketM Bytes :=
  if masked then Socket.recvExact 4 else return []

/-- `read_frame`. -/
def readFrame : SocketM WsFrame := do
  let head ← Socket.recvExact 2
  match parseHeader (head.getD 0 0) (head.getD 1 0) with
  | .error exn => throw exn
  | .ok header =>
      let length ← readLength header.length
      let maskingKey ← readMaskingKey header.masked
      let payload ← Socket.recvExact length
      return {
        fin := header.fin
        opcode := header.opcode
        payload := if header.masked then xorMask maskingKey payload else payload }

/-! ### The text of a close frame -/

/-- `_parse_close`. -/
def parseClose (payload : Bytes) : Option Nat × String :=
  if 2 ≤ payload.length then (some (ofBytesBE (payload.take 2)), utf8DecodeReplace (payload.drop 2))
  else (none, "")

/-! ### WebSocket -/

/-- A `WebSocket` with its socket, and the masking keys that `os.urandom` gives in turn. -/
structure WsEndpoint where
  ws : WebSocket
  sock : Socket
  urandom : Nat → MaskingKey
  drawn : Nat

/-- A computation of a `WebSocket`. -/
abbrev WsM := EStateM TransportExn WsEndpoint

namespace WsEndpoint

/-- Use the socket. -/
def onSocket {α : Type} (action : SocketM α) : WsM α := fun ep =>
  match action ep.sock with
  | .ok value sock => .ok value { ep with sock := sock }
  | .error exn sock => .error exn { ep with sock := sock }

/-- What `_send` raises before it writes. -/
def sendError : Exn → TransportExn
  | .structError text => .structError text
  | _ => .connectionClosed none "send on closed connection"

/-- `_send`. -/
def sendFrame (opcode : Opcode) (payload : Bytes) : WsM Unit := do
  let ep ← get
  match ep.ws.sendFrame (ep.urandom ep.drawn) opcode payload with
  | .error exn => throw (sendError exn)
  | .ok frame =>
      set { ep with drawn := if ep.ws.isClient then ep.drawn + 1 else ep.drawn }
      onSocket (Socket.sendall frame)

/-- The message `recv` returns: text is decoded. -/
def assembled (messageOpcode : Opcode) (data : Bytes) : WsM WsMessage :=
  if messageOpcode = .text then
    match utf8Decode data with
    | some text => return .text text
    | none => throw (.unicodeDecodeError data)
  else return .binary data

/-- The opcode of the message a data frame belongs to. -/
def messageOpcodeOf (opcode : Opcode) (messageOpcode : Option Opcode) : Except TransportExn Opcode :=
  match opcode, messageOpcode with
  | .cont, none => .error (.protocolError "continuation frame without a start")
  | .cont, some messageOpcode => .ok messageOpcode
  | opcode, _ => .ok opcode

/-- One round of the loop of `recv` with its two variables, behind the read; `again` is the next round. -/
def handleFrame (again : List Bytes → Option Opcode → WsM WsMessage) (chunks : List Bytes)
    (messageOpcode : Option Opcode) (frame : WsFrame) : WsM WsMessage :=
  match frame.opcode with
  | .close => do
      modify fun ep => { ep with ws := { ep.ws with closed := true } }
      throw (.connectionClosed (parseClose frame.payload).1 (parseClose frame.payload).2)
  | .ping => do
      sendFrame .pong frame.payload
      again chunks messageOpcode
  | .pong => again chunks messageOpcode
  | opcode =>
      match messageOpcodeOf opcode messageOpcode with
      | .error exn => throw exn
      | .ok messageOpcode =>
          if frame.fin then assembled messageOpcode (chunks ++ [frame.payload]).flatten
          else again (chunks ++ [frame.payload]) (some messageOpcode)

/-- The loop of `recv`. A frame takes at least two bytes off the stream, so the number of bytes left
bounds the rounds, and the loop never runs out of them. -/
def recvLoop : Nat → List Bytes → Option Opcode → WsM WsMessage
  | 0, _, _ => throw (.connectionClosed none "stream ended mid-frame")
  | rounds + 1, chunks, messageOpcode => do
      handleFrame (recvLoop rounds) chunks messageOpcode (← onSocket readFrame)

/-- `recv`. -/
def recv : WsM WsMessage := do
  let ep ← get
  if ep.ws.closed then throw (.connectionClosed none "recv on closed connection")
  else recvLoop (ep.sock.rest.length + 1) [] none

/-- So many calls of `recv`, as long as none raises. -/
def recvMany : Nat → WsM (List WsMessage)
  | 0 => return []
  | calls + 1 => do
      let message ← recv
      let messages ← recvMany calls
      return message :: messages

end WsEndpoint

/-- A call of `recv` with the states before and after it. -/
structure RecvCall where
  before : WsEndpoint
  result : Except TransportExn WsMessage
  after : WsEndpoint

/-- A call of `recv`. -/
def WsEndpoint.call (before : WsEndpoint) : RecvCall :=
  match recv before with
  | .ok message after => { before, result := .ok message, after }
  | .error exn after => { before, result := .error exn, after }

/-- So many calls of `recv`, also behind calls that raise. -/
def recvCalls : Nat → WsEndpoint → List RecvCall
  | 0, _ => []
  | calls + 1, ep => ep.call :: recvCalls calls ep.call.after

end Priestly
