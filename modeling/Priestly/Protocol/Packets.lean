/-
Module: Priestly.Protocol.Packets
Layer: Protocol
Purpose: The packet envelope of `protocol/packets.py`: one constructor for each member of the frame
  union, with the fields of `protocol/models.py`, and the bridge `dumps`/`loads` between frames and
  wire text. What the interpreter and pydantic supply around it is collected in `Runtime`.
Imports: Priestly.Crypto.Hkdf
Trusted boundary: the fields of `Runtime` stand for the standard library and pydantic
Main exports: Frame, SealedFrame, Packet, Json, Runtime, WsMessage, dumps, loads
-/
import Priestly.Crypto.Hkdf

namespace Priestly

open ByteCodec

/-! ### Frames -/

/-- `models.Handshake`. The timestamp is kept as its text. -/
structure Handshake where
  id : Int
  userId : Int
  deviceId : Int
  timestamp : String
  status : String
deriving DecidableEq, Repr

/-- `models.Message`. -/
structure Message where
  id : Int
  senderId : Int
  receiverId : Int
  ciphertext : String
  timestamp : String
  status : String
deriving DecidableEq, Repr

/-- `SealedFrame`, a post-handshake application message. -/
structure SealedFrame where
  epoch : Int
  seq : Int
  direction : String
  payload : String
  tag : String
deriving DecidableEq, Repr

/-- The frame union. The constructor plays the part of the `type` discriminator. -/
inductive Frame where
  | hello (handshake : Handshake)
  | helloAck (status serverName : String) (passwordRequired : Bool)
  | message (message : Message)
  | ack (refId : Int)
  | error (code : Int) (reason : String)
  | covenantCommit (commit : String)
  | covenantChallenge (maskedB : String)
  | covenantConfirm (a confirmC : String)
  | authOk (confirmS : String)
  | authFail (reason : String)
  | sealed (frame : SealedFrame)
  | chat (text sender : String)
deriving DecidableEq, Repr

namespace Frame

/-- `type(frame).__name__`. -/
def typeName : Frame → String
  | hello _ => "HelloFrame"
  | helloAck _ _ _ => "HelloAckFrame"
  | message _ => "MessageFrame"
  | ack _ => "AckFrame"
  | error _ _ => "ErrorFrame"
  | covenantCommit _ => "CovenantCommitFrame"
  | covenantChallenge _ => "CovenantChallengeFrame"
  | covenantConfirm _ _ => "CovenantConfirmFrame"
  | authOk _ => "AuthOkFrame"
  | authFail _ => "AuthFailFrame"
  | sealed _ => "SealedFrame"
  | chat _ _ => "ChatFrame"

end Frame

/-- The top-level envelope. -/
structure Packet where
  version : Int
  frame : Frame
deriving DecidableEq, Repr

/-- `PROTOCOL_VERSION`. -/
def protocolVersion : Int := 1

/-! ### The interpreter around the program -/

/-- What `json.loads` returns. A number keeps its literal; an object has each key once. -/
inductive Json where
  | null
  | bool (value : Bool)
  | number (literal : String)
  | string (text : String)
  | array (items : List Json)
  | object (entries : List (String × Json))

/-- The library functions the protocol calls: the keyed MAC, `repr` of a string, pydantic's JSON
codec for packets, and the `json` module with `str` of what it returns. Strings are sequences of
Unicode scalar values, so a lone surrogate is outside the model. -/
structure Runtime where
  hmac : Mac
  strRepr : String → String
  /-- The text of the `UnicodeDecodeError` that decoding the data raises. -/
  unicodeErrorText : Bytes → String
  /-- `Packet.model_validate_json`; the error is the text of the `ValidationError`. -/
  modelValidateJson : String → Except String Packet
  modelDumpJson : Packet → String
  jsonLoads : String → Except Exn Json
  jsonDumps : Json → String
  /-- `str(value)` on a value that is not a string. -/
  strOf : Json → Except Exn String

/-- An application message of the WebSocket layer. -/
inductive WsMessage where
  | text (text : String)
  | binary (data : Bytes)
deriving DecidableEq, Repr

/-- `data.decode("utf-8")`. -/
def Runtime.decode (rt : Runtime) (data : Bytes) : Except Exn String :=
  match utf8Decode data with
  | some text => .ok text
  | none => .error (.unicodeDecodeError (rt.unicodeErrorText data))

@[simp] theorem Runtime.decode_utf8Encode (rt : Runtime) (text : String) :
    rt.decode (utf8Encode text) = .ok text := by
  simp [Runtime.decode]

/-! ### Bridge to the transport layer -/

/-- Serialize a frame to the JSON text that goes in a WebSocket frame. -/
def dumps (rt : Runtime) (frame : Frame) : String :=
  rt.modelDumpJson { version := protocolVersion, frame }

/-- Parse wire text into a validated frame, raising on version mismatch. -/
def loads (rt : Runtime) (raw : String) : Except Exn Frame :=
  match rt.modelValidateJson raw with
  | .error text => .error (.validationError text)
  | .ok packet =>
      if packet.version ≠ protocolVersion then
        .error (.valueError s!"unsupported protocol version {packet.version} (this build speaks v{protocolVersion})")
      else .ok packet.frame

/-- `_recv_frame` behind the read: text is parsed, binary data is decoded first. -/
def parseMessage (rt : Runtime) : WsMessage → Except Exn Frame
  | .text text => loads rt text
  | .binary data => do loads rt (← rt.decode data)

/-- The message `ws.send(dumps(frame))` puts on the wire. -/
def wire (rt : Runtime) (frame : Frame) : WsMessage := .text (dumps rt frame)

@[simp] theorem parseMessage_wire (rt : Runtime) (frame : Frame) :
    parseMessage rt (wire rt frame) = loads rt (dumps rt frame) := rfl

/-- Parsing wire text fails only with a `ValueError`. -/
theorem loads_error {rt : Runtime} {raw : String} {exn : Exn} (h : loads rt raw = .error exn) :
    exn.isValueError = true := by
  rw [loads] at h
  cases hpacket : rt.modelValidateJson raw with
  | error text =>
      rw [hpacket] at h
      cases h
      rfl
  | ok packet =>
      rw [hpacket] at h
      by_cases hversion : packet.version ≠ protocolVersion
      · simp only [if_pos hversion, Except.error.injEq] at h
        rw [← h]
        rfl
      · simp only [if_neg hversion] at h
        cases h

/-- Parsing a message fails only with a `ValueError`, which a `CovenantError` is not. -/
theorem parseMessage_error {rt : Runtime} {message : WsMessage} {exn : Exn}
    (h : parseMessage rt message = .error exn) : exn.isValueError = true := by
  cases message with
  | text text => exact loads_error h
  | binary data =>
      rw [parseMessage, Runtime.decode] at h
      cases hdecode : utf8Decode data with
      | none =>
          rw [hdecode] at h
          cases h
          rfl
      | some text =>
          rw [hdecode] at h
          exact loads_error h

end Priestly
