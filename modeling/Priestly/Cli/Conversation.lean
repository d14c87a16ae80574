/-
Module: Priestly.Cli.Conversation
Layer: Cli
Purpose: An authenticated chat client with an attacker on the wire. The server seals what it likes, the
  client sends what it likes, and the attacker delivers messages of any kind. What the client hands its
  user is kept as a list.
Imports: Priestly.Protocol.Channel, Priestly.Cli.ChatClient
Trusted boundary: none
Main exports: Conversation, Conversation.Run, Conversation.InOrder
-/
import Priestly.Protocol.Channel
import Priestly.Cli.ChatClient

namespace Priestly

open ByteCodec

/-- A client, the server's end of its session, and the messages `receive` has returned. -/
structure Conversation where
  client : ChatClient
  server : Endpoint
  returned : List (String × String)

namespace Conversation

/-- The client right after the authentication; the server's session has the same keys. -/
def start (keys : SessionKeys) (compress : Bool) (client : ChatClient) : Conversation where
  client := client
  server := { session := .new keys false compress, sent := [], accepted := [] }
  returned := []

/-- What may happen in a conversation. -/
inductive Event where
  | serverSeals (plaintext : Bytes)
  | serverOpens (frame : SealedFrame)
  | clientSends (text sender : String)
  | delivered (message : WsMessage)

/-- The conversation after an event. -/
def next (rt : Runtime) (c : Conversation) : Event → Conversation
  | .serverSeals plaintext => { c with server := c.server.push rt.hmac plaintext }
  | .serverOpens frame => { c with server := c.server.present rt frame }
  | .clientSends text sender => { c with client := (c.client.send rt text sender).2 }
  | .delivered message =>
      match c.client.receive rt message with
      | (.ok handed, client) => { c with client, returned := c.returned ++ [handed] }
      | (.error _, client) => { c with client }

/-- Tags under the server's MAC key come from the server: if the tag of a delivered sealed frame is the right
one, under that key, for the input that the frame claims, the server has sealed a frame over that input. -/
def Genuine (rt : Runtime) (keys : SessionKeys) (c : Conversation) : Event → Prop
  | .delivered message => ∀ frame input, parseMessage rt message = .ok (.sealed frame) →
      frame.Authenticates input → frame.tag = sign rt.hmac keys.serverMac input →
      ∃ entry ∈ c.server.sent, entry.2.Authenticates input
  | _ => True

/-- The conversations that runs from a start reach, with the events of the run. -/
inductive Run (rt : Runtime) (keys : SessionKeys) (c₀ : Conversation) :
    List Event → Conversation → Prop where
  | nil : Run rt keys c₀ [] c₀
  | snoc {events c} (run : Run rt keys c₀ events c) (event : Event)
      (genuine : c.Genuine rt keys event) : Run rt keys c₀ (events ++ [event]) (c.next rt event)

/-- What the client has handed its user are decodings of plaintexts the server sealed, in the order of
the sealing and each at most once. -/
def InOrder (rt : Runtime) (c : Conversation) : Prop :=
  ∃ picked : List (Bytes × SealedFrame), picked.Sublist c.server.sent ∧
    (picked.map fun entry => decodeMessage rt entry.1) = c.returned.map .ok

/-- The message is a packet with a plain chat frame. -/
def PlainChat (rt : Runtime) (message : WsMessage) : Prop :=
  ∃ text sender, parseMessage rt message = .ok (.chat text sender)

end Conversation

end Priestly
