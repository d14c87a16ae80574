/-
Module: Priestly.Cli.ChatClient
Layer: Cli
Purpose: `cli/chat_client.py`: the client side of the protocol over one connection, from the HELLO
  through the authentication to sending and receiving chat messages.
Imports: Priestly.Protocol.Covenant, Priestly.Cli.Relay
Trusted boundary: none
Main exports: ChatClient, ChatClient.authenticate, ChatClient.send, ChatClient.receive
-/
import Priestly.Protocol.Covenant
import Priestly.Cli.Relay

namespace Priestly

open ByteCodec Interaction

/-- Drives one client connection through handshake and messaging. -/
structure ChatClient where
  session : Option SessionState
  serverName : Option String
  passwordRequired : Bool
deriving DecidableEq, Repr

namespace ChatClient

/-- `ChatClient(ws)`. -/
def new : ChatClient := { session := none, serverName := none, passwordRequired := false }

variable (rt : Runtime)

/-- Send HELLO and record the server's capabilities from HELLO_ACK. The timestamp is the time of the
call. -/
def hello (client : ChatClient) (timestamp : String) (userId deviceId : Int) : Driver ChatClient := do
  Program.emit (.hello { id := 1, userId, deviceId, timestamp, status := "init" })
  match ← recvFrame rt with
  | .helloAck _ serverName passwordRequired =>
      return { client with serverName := some serverName, passwordRequired }
  | other => throw (.chatProtocolError s!"expected HELLO_ACK, got {other.typeName}")

/-- Run the Covenant handshake. -/
def authenticate (grp : ModpGroup) (client : ChatClient) (a : Nat) (password : Bytes) :
    Driver ChatClient := do
  let session ← runClient rt grp a password
  return { client with session := some session }

/-- The frame `send` writes, sealed if the session is authenticated. -/
def send (client : ChatClient) (text sender : String) : Except Exn Frame × ChatClient :=
  match client.session with
  | none => (.ok (.chat text sender), client)
  | some session =>
      let (frame, session') := session.seal rt.hmac (encodeMessage rt text sender)
      (frame.map .sealed, { client with session := some session' })

/-- What `receive` makes of the next inbound message: `(text, sender)` or an exception. -/
def receive (client : ChatClient) (message : WsMessage) :
    Except Exn (String × String) × ChatClient :=
  match parseMessage rt message with
  | .error exn => (.error exn, client)
  | .ok (.sealed frame) =>
      match client.session with
      | none =>
          (.error (.chatProtocolError "received sealed frame before authentication"), client)
      | some session =>
          let (plaintext, session') := session.open rt frame
          (plaintext.bind (decodeMessage rt), { client with session := some session' })
  | .ok (.chat text sender) => (.ok (text, sender), client)
  | .ok other => (.error (.chatProtocolError s!"unexpected frame {other.typeName}"), client)

end ChatClient

end Priestly
