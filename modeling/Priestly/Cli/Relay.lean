/-
Module: Priestly.Cli.Relay
Layer: Cli
Purpose: `cli/relay.py`: the application payload of a sealed frame, the client a registry keeps, and the
  registry itself. A client is what its connection and its lock protect: the name and the session.
Imports: Priestly.Protocol.Session
Trusted boundary: none
Main exports: encodeMessage, decodeMessage, RegisteredClient, RegisteredClient.deliver
-/
import Priestly.Protocol.Session

namespace Priestly

open ByteCodec

/-! ### The application payload -/

/-- The object that `encode_message` dumps. -/
def messageObject (text sender : String) : Json :=
  .object [("text", .string text), ("sender", .string sender)]

/-- The application payload carried inside a sealed frame. -/
def encodeMessage (rt : Runtime) (text sender : String) : Bytes :=
  utf8Encode (rt.jsonDumps (messageObject text sender))

/-- `type(value).__name__` of what `json.loads` returns. A number is a float when its literal has a
point, an exponent, or is one of the words `NaN` and `Infinity`. -/
def Json.typeName : Json → String
  | .null => "NoneType"
  | .bool _ => "bool"
  | .number literal => if literal.any fun c => c ∈ ['.', 'e', 'E', 'N', 'I'] then "float" else "int"
  | .string _ => "str"
  | .array _ => "list"
  | .object _ => "dict"

/-- `str(value)`. -/
def Runtime.str (rt : Runtime) : Json → Except Exn String
  | .string text => .ok text
  | value => rt.strOf value

/-- `str(obj.get(key, default))`. -/
def strGet (rt : Runtime) (entries : List (String × Json)) (key default : String) :
    Except Exn String :=
  rt.str ((entries.lookup key).getD (.string default))

/-- The field extraction of `decode_message`; only a dictionary has `get`. -/
def messageFields (rt : Runtime) : Json → Except Exn (String × String)
  | .object entries => do
      let text ← strGet rt entries "text" ""
      let sender ← strGet rt entries "sender" "anon"
      return (text, sender)
  | other => .error (.attributeError s!"'{other.typeName}' object has no attribute 'get'")

/-- Inverse of `encode_message`; tolerant of missing fields. -/
def decodeMessage (rt : Runtime) (plaintext : Bytes) : Except Exn (String × String) := do
  messageFields rt (← rt.jsonLoads (← rt.decode plaintext))

/-- `json.loads` inverts `json.dumps` on the objects the payload is made of. -/
def JsonRoundTrip (rt : Runtime) : Prop :=
  ∀ text sender, rt.jsonLoads (rt.jsonDumps (messageObject text sender)) =
    .ok (messageObject text sender)

/-- Decoding an encoded message gives its text and sender. -/
theorem decodeMessage_encodeMessage {rt : Runtime} (h : JsonRoundTrip rt) (text sender : String) :
    decodeMessage rt (encodeMessage rt text sender) = .ok (text, sender) := by
  rw [decodeMessage, encodeMessage, rt.decode_utf8Encode, ok_bind, h text sender]
  rfl

/-! ### Clients -/

/-- One authorized connection. -/
structure RegisteredClient where
  name : String
  session : Option SessionState
deriving DecidableEq, Repr

/-- The frame `deliver` writes for one message, sealed if the session is authenticated. -/
def RegisteredClient.deliver (client : RegisteredClient) (rt : Runtime) (text sender : String) :
    Except Exn Frame × RegisteredClient :=
  match client.session with
  | none => (.ok (.chat text sender), client)
  | some session =>
      let (frame, session') := session.seal rt.hmac (encodeMessage rt text sender)
      (frame.map .sealed, { client with session := some session' })

end Priestly
