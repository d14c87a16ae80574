/-
Module: Priestly.Cli.Room
Layer: Cli
Purpose: A chat room: the running server of `cli/server.py` with a `ChatClient` at the other end of every
  connection. Each connection keeps the order of what is written to it, in either direction; nothing else is
  assumed of the network, the threads or the users.
Imports: Priestly.Cli.ChatClient, Priestly.Cli.Node
Trusted boundary: a connection loses nothing but its end
Main exports: Letter, Room, RoomStep, Room.Run
-/
import Mathlib.Logic.Relation
import Priestly.Cli.ChatClient
import Priestly.Cli.Node

namespace Priestly

/-- A message, text and sender, with the frame that carries it. -/
abbrev Letter := (String × String) × Frame

/-- The server and the client at the other end of each connection. What the client has written is kept with the
number of frames the server has received of it; `heard` is what its calls of `receive` returned or raised. -/
structure Room where
  hub : Hub
  user : Nat → ChatClient
  said : Nat → List Letter
  received : Nat → Nat
  heard : Nat → List (Except Exn (String × String))

/-- The two ends of a connection that has been greeted: without sessions on an open node, and with sessions
that were made from one set of keys on a protected one. -/
def Greeted (user : ChatClient) (client : RegisteredClient) : Prop :=
  (user.session = none ∧ client.session = none) ∨
    ∃ keys compress compress', user.session = some (.new keys true compress) ∧
      client.session = some (.new keys false compress')

open Function in
/-- The steps of a chat room. -/
inductive RoomStep (rt : Runtime) : Room → Room → Prop where
  /-- A client and the server have gone through the greeting, and the server registers the connection. -/
  | join {s : Room} {i : Nat} {user : ChatClient} {client : RegisteredClient} {hub : Hub}
      (greeted : Greeted user client) (step : HubStep rt (.join i client) s.hub hub) :
      RoomStep rt s { s with hub, user := update s.user i user }
  /-- A user says something, and its frame is written. -/
  | say {s : Room} {i : Nat} {text sender : String} {frame : Frame} {user : ChatClient}
      (joined : s.hub.thread i ≠ .absent) (send : (s.user i).send rt text sender = (.ok frame, user)) :
      RoomStep rt s
        { s with
          user := update s.user i user
          said := update s.said i (s.said i ++ [((text, sender), frame)]) }
  /-- A user says something, and the frame cannot be made or cannot be written. -/
  | sayFails {s : Room} {i : Nat} {text sender : String} {result : Except Exn Frame} {user : ChatClient}
      (joined : s.hub.thread i ≠ .absent) (send : (s.user i).send rt text sender = (result, user)) :
      RoomStep rt s { s with user := update s.user i user }
  /-- The loop receives the next frame of its client. -/
  | receive {s : Room} {i : Nat} {letter : Letter} {hub : Hub}
      (next : (s.said i)[s.received i]? = some letter)
      (step : HubStep rt (.receive i (wire rt letter.2)) s.hub hub) :
      RoomStep rt s { s with hub, received := update s.received i (s.received i + 1) }
  /-- A client receives the next frame that was written to it. -/
  | hear {s : Room} {r : Nat} {written : Written} {result : Except Exn (String × String)} {user : ChatClient}
      (next : (s.hub.written r)[(s.heard r).length]? = some written)
      (receive : (s.user r).receive rt (wire rt written.frame) = (result, user)) :
      RoomStep rt s
        { s with
          user := update s.user r user
          heard := update s.heard r (s.heard r ++ [result]) }
  /-- The server takes a step by itself, a read fails, or a socket does. -/
  | work {s : Room} {event : HubEvent} {hub : Hub}
      (within : ∀ i, (∀ client, event ≠ .join i client) ∧ ∀ message, event ≠ .receive i message)
      (step : HubStep rt event s.hub hub) :
      RoomStep rt s { s with hub }

namespace Room

/-- The room before the first connection. -/
def start : Room where
  hub := .start
  user _ := .new
  said _ := []
  received _ := 0
  heard _ := []

/-- The rooms that runs reach. -/
def Run (rt : Runtime) (s : Room) : Prop := Relation.ReflTransGen (RoomStep rt) .start s

end Room

end Priestly
