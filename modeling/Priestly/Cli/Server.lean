/-
Module: Priestly.Cli.Server
Layer: Cli
Purpose: `_message_loop` of `cli/server.py`, one pass at a time: what the loop does with one message it
  has received, and the state it leaves the client's session in.
Imports: Priestly.Cli.Relay
Trusted boundary: none
Main exports: LoopAction, messageLoopBody, Acceptable, Answerable
-/
import Priestly.Cli.Relay

namespace Priestly

open ByteCodec

/-- How a pass of the loop ends when it does not raise: with a frame written back, or with a message
for the hub to broadcast. -/
inductive LoopAction where
  | reply (frame : Frame)
  | broadcast (text sender : String)
deriving DecidableEq, Repr

/-- `isinstance(exc, (AuthenticationError, ReplayError, ValueError))`. -/
def Exn.isBadFrame : Exn → Bool
  | .authenticationError _ | .replayError _ => true
  | exn => exn.isValueError

/-- `f"bad sealed frame: {exc}"[:120]`. -/
def badFrameReason (exn : Exn) : String :=
  .ofList (s!"bad sealed frame: {exn.str}".toList.take 120)

/-- `sender or name`. -/
def senderOr (sender name : String) : String := if sender = "" then name else sender

/-- One pass of `_message_loop` over a received message. The loop variable `name` is the client's
name. -/
def messageLoopBody (rt : Runtime) (client : RegisteredClient) (message : WsMessage) :
    Except Exn LoopAction × RegisteredClient :=
  match parseMessage rt message with
  | .error exn => (.error exn, client)
  | .ok (.sealed frame) =>
      match client.session with
      | none => (.ok (.reply (.error 403 "not authenticated")), client)
      | some session =>
          let (plaintext, session') := session.open rt frame
          let client' := { client with session := some session' }
          match plaintext.bind (decodeMessage rt) with
          | .ok (text, sender) => (.ok (.broadcast text (senderOr sender client.name)), client')
          | .error exn =>
              if exn.isBadFrame then (.ok (.reply (.error 400 (badFrameReason exn))), client')
              else (.error exn, client')
  | .ok (.chat text sender) =>
      match client.session with
      | some _ => (.ok (.reply (.error 400 "node requires sealed frames")), client)
      | none => (.ok (.broadcast text (senderOr sender client.name)), client)
  | .ok _ => (.ok (.reply (.error 422 "unexpected frame")), client)

/-! ### Acceptable and answerable messages -/

/-- The message is an acceptable frame for the connection: plaintext on an open one, a sealed frame
that opens and decodes on an authenticated one. -/
def Acceptable (rt : Runtime) (client : RegisteredClient) (message : WsMessage) : Prop :=
  (∃ text sender, parseMessage rt message = .ok (.chat text sender) ∧ client.session = none) ∨
    ∃ frame session plaintext handed, parseMessage rt message = .ok (.sealed frame) ∧
      client.session = some session ∧ (session.open rt frame).1 = .ok plaintext ∧
      decodeMessage rt plaintext = .ok handed

/-- The fields of a dictionary are turned into texts without an exception, or with one that counts as a
bad frame. -/
def FieldsAnswerable (rt : Runtime) (entries : List (String × Json)) : Prop :=
  ∀ exn, strGet rt entries "text" "" = .error exn ∨
    ((∃ text, strGet rt entries "text" "" = .ok text) ∧ strGet rt entries "sender" "anon" = .error exn) →
    exn.isBadFrame = true

/-- The plaintext is no UTF-8, no JSON, or the JSON of a dictionary; and JSON that is refused is
refused as malformed and not as nested too deeply. -/
def PlaintextAnswerable (rt : Runtime) (plaintext : Bytes) : Prop :=
  ∀ text, utf8Decode plaintext = some text →
    match rt.jsonLoads text with
    | .error exn => exn.isBadFrame = true
    | .ok (.object entries) => FieldsAnswerable rt entries
    | .ok _ => False

/-- A body that is marked as compressed has a complete frequency table, and what the body unpacks to is
answerable. -/
def BodyAnswerable (rt : Runtime) (body : Bytes) : Prop :=
  (∀ blob, body = huffmanMarker :: blob → ∃ plaintext, Huffman.decompress blob = .ok plaintext) ∧
    ∀ plaintext, unpack body = .ok plaintext → PlaintextAnswerable rt plaintext

/-- The number fits the eight octets of its header field. -/
def FitsHeader (n : Int) : Prop := 0 ≤ n ∧ n < 2 ^ 64

/-- A sealed frame of the right direction with decodable payload has header numbers that fit their
fields and an ASCII tag, and its body is answerable should the frame be genuine and new. -/
def SealedAnswerable (rt : Runtime) (session : SessionState) (frame : SealedFrame) : Prop :=
  ∀ body, frame.direction = session.rxDir → b64decode frame.payload = .ok body →
    FitsHeader frame.epoch ∧ FitsHeader frame.seq ∧ isAscii frame.tag = true ∧
    ∀ input, tagMessage frame.epoch frame.seq frame.direction body = .ok input →
      frame.tag = sign rt.hmac session.rxMac input → session.rxSeq < frame.seq →
      BodyAnswerable rt body

/-- The message is a packet of this protocol version, and if it is a sealed frame for an authenticated
connection, an answerable one. -/
def Answerable (rt : Runtime) (client : RegisteredClient) (message : WsMessage) : Prop :=
  ∃ frame, parseMessage rt message = .ok frame ∧
    ∀ sealedFrame session, frame = .sealed sealedFrame → client.session = some session →
      SealedAnswerable rt session sealedFrame

end Priestly
