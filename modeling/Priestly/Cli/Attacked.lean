/-
Module: Priestly.Cli.Attacked
Layer: Cli
Purpose: A protected node and its clients on a network that belongs to an attacker. Every connection has gone
  through its handshake and has keys of its own. From then on the attacker delivers to either end what it
  likes, whenever it likes, on any connection; it may have clients of its own among the others.
Imports: Priestly.Cli.Room, Priestly.Protocol.Channel
Trusted boundary: nobody but the two ends of a connection computes tags under its keys
Main exports: AttackedRoom, AttackedRoom.Unforged, AttackStep, AttackedRoom.Run
-/
import Mathlib.Logic.Relation
import Priestly.Cli.Room
import Priestly.Protocol.Channel

namespace Priestly

open ByteCodec

/-- The server, the client at the other end of each connection and the keys they share. What the two ends have
made for each other is kept, whether or not it could be written: the messages a user has said with their frames,
and the frames of the server. What a client has handed its user is kept with the message that was delivered. -/
structure AttackedRoom where
  hub : Hub
  user : Nat → ChatClient
  keys : Nat → SessionKeys
  said : Nat → List Letter
  handed : Nat → List Written
  heard : Nat → List (WsMessage × (String × String))

namespace AttackedRoom

/-- An end of the connection has made the frame. -/
def Made (s : AttackedRoom) (i : Nat) (frame : SealedFrame) : Role → Prop
  | .client => ∃ letter ∈ s.said i, letter.2 = .sealed frame
  | .server => ∃ b, Written.relayed b (.sealed frame) ∈ s.handed i

/-- What the attacker can deliver: if the tag of a sealed frame is the right one, under a key of a connection
that is not its own, for the input that the frame claims, an end that tags with this key has made a frame over
that input. -/
def Unforged (rt : Runtime) (insider : Nat → Prop) (s : AttackedRoom) (message : WsMessage) : Prop :=
  ∀ frame, parseMessage rt message = .ok (.sealed frame) →
    ∀ i, s.hub.thread i ≠ .absent → ¬ insider i → ∀ role input, frame.Authenticates input →
      frame.tag = sign rt.hmac ((s.keys i).mac role) input →
      ∃ j maker original, s.Made j original maker ∧ (s.keys j).mac maker = (s.keys i).mac role ∧
        original.Authenticates input

end AttackedRoom

open Function in
/-- The steps of a room under attack. The connections of insiders are those whose client is the attacker. -/
inductive AttackStep (rt : Runtime) (insider : Nat → Prop) : AttackedRoom → AttackedRoom → Prop where
  /-- A handshake has come to its end with new keys, and the server registers the connection. -/
  | join {s : AttackedRoom} {i : Nat} {keys : SessionKeys} {compress compress' : Bool} {user : ChatClient}
      {client : RegisteredClient} {hub : Hub} (atUser : user.session = some (.new keys true compress))
      (atServer : client.session = some (.new keys false compress'))
      (own : ∀ j, s.hub.thread j ≠ .absent → ∀ role role', keys.mac role ≠ (s.keys j).mac role')
      (step : HubStep rt (.join i client) s.hub hub) :
      AttackStep rt insider s { s with hub, user := update s.user i user, keys := update s.keys i keys }
  /-- A user says something, and its frame is made. -/
  | say {s : AttackedRoom} {i : Nat} {text sender : String} {frame : Frame} {user : ChatClient}
      (joined : s.hub.thread i ≠ .absent) (send : (s.user i).send rt text sender = (.ok frame, user)) :
      AttackStep rt insider s
        { s with
          user := update s.user i user
          said := update s.said i (s.said i ++ [((text, sender), frame)]) }
  /-- A user says something, and its frame cannot be made. -/
  | sayFails {s : AttackedRoom} {i : Nat} {text sender : String} {exn : Exn} {user : ChatClient}
      (joined : s.hub.thread i ≠ .absent) (send : (s.user i).send rt text sender = (.error exn, user)) :
      AttackStep rt insider s { s with user := update s.user i user }
  /-- A message is delivered to a client, whose call of `receive` returns. -/
  | hear {s : AttackedRoom} {r : Nat} {message : WsMessage} {handed : String × String} {user : ChatClient}
      (joined : s.hub.thread r ≠ .absent) (unforged : s.Unforged rt insider message)
      (receive : (s.user r).receive rt message = (.ok handed, user)) :
      AttackStep rt insider s
        { s with
          user := update s.user r user
          heard := update s.heard r (s.heard r ++ [(message, handed)]) }
  /-- A message is delivered to a client, whose call of `receive` raises. -/
  | hearFails {s : AttackedRoom} {r : Nat} {message : WsMessage} {exn : Exn} {user : ChatClient}
      (joined : s.hub.thread r ≠ .absent) (unforged : s.Unforged rt insider message)
      (receive : (s.user r).receive rt message = (.error exn, user)) :
      AttackStep rt insider s { s with user := update s.user r user }
  /-- The server receives a message that is delivered to it, takes a step by itself, or loses a connection. -/
  | work {s : AttackedRoom} {event : HubEvent} {hub : Hub} (outside : ∀ i client, event ≠ .join i client)
      (unforged : ∀ i message, event = .receive i message → s.Unforged rt insider message)
      (step : HubStep rt event s.hub hub) :
      AttackStep rt insider s { s with hub, handed := Node.note s.handed (event.offer rt s.hub) }

namespace AttackedRoom

/-- The room before the first connection. -/
def start : AttackedRoom where
  hub := .start
  user _ := .new
  keys _ := { clientWrite := [], serverWrite := [], clientMac := [], serverMac := [] }
  said _ := []
  handed _ := []
  heard _ := []

/-- The rooms that runs reach. -/
def Run (rt : Runtime) (insider : Nat → Prop) (s : AttackedRoom) : Prop :=
  Relation.ReflTransGen (AttackStep rt insider) .start s

end AttackedRoom

end Priestly
