/-
Module: Priestly.Cli.Sockets
Layer: Cli
Purpose: The running chat server with its sockets: `sendall` writes the bytes of a frame in pieces, and
  other threads may take steps in between. `RegisteredClient.deliver` holds the recipient's lock while it
  writes; what a thread answers to its own client, an error frame or a pong, it writes without the lock.
Imports: Priestly.Cli.Server, Priestly.Transport.Ws
Trusted boundary: a socket that has failed takes no more bytes
Main exports: Worker, Sockets, SocketEvent, SocketStep, Sockets.Run, Sockets.Separate
-/
import Mathlib.Logic.Function.Basic
import Priestly.Cli.Server
import Priestly.Transport.Ws

namespace Priestly

open ByteCodec

/-- What is left of a call of `broadcast`. -/
structure Relay where
  text : String
  senderName : String
  todo : List Nat
deriving DecidableEq, Repr

/-- Where the thread of a connection stands. A thread inside `sendall` carries the bytes it has written
and those it has still to write; when it answers its own client, it goes on with the handshake or, once it
has joined, with the loop. -/
inductive Worker where
  | absent
  | handshaking
  | looping
  | answering (joined : Bool) (written rest : Bytes)
  | broadcasting (relay : Relay)
  | delivering (recipient : Nat) (written rest : Bytes) (relay : Relay)
  | dropping (recipient : Nat) (relay : Relay)
  | leaving
  | ended
deriving DecidableEq, Repr

/-- A thread that waits for the next frame of its client. -/
def Worker.idle (joined : Bool) : Worker := if joined then .looping else .handshaking

/-- The state of the server: clients, their `WebSocket`s, who holds a client's lock, the threads, which
sockets have failed, the bytes written to each, and the registry. -/
structure Sockets where
  client : Nat → RegisteredClient
  ws : Nat → WebSocket
  lock : Nat → Option Nat
  worker : Nat → Worker
  broken : Nat → Bool
  stream : Nat → Bytes
  registry : List Nat

/-- What may happen. -/
inductive SocketEvent where
  | accept (i : Nat)
  | greet (i : Nat) (frame : Frame)
  | join (i : Nat) (client : RegisteredClient)
  | ping (i : Nat) (payload : Bytes)
  | close (i : Nat)
  | receive (i : Nat) (message : WsMessage)
  | receiveFails (i : Nat)
  | acquire (i recipient : Nat)
  | write (i : Nat) (part : Bytes)
  | sent (i : Nat)
  | writeFails (i : Nat)
  | drop (i : Nat)
  | finish (i : Nat)
  | leave (i : Nat)
  | breaks (i : Nat)

open Function in
/-- The steps of the server. -/
inductive SocketStep (rt : Runtime) : SocketEvent → Sockets → Sockets → Prop where
  /-- A thread takes over a connection. -/
  | accept {s : Sockets} {i : Nat} (free : s.worker i = .absent) :
      SocketStep rt (.accept i) s { s with worker := update s.worker i .handshaking }
  /-- The session handler sends a frame of the handshake. -/
  | greet {s : Sockets} {i : Nat} {frame : Frame} {key : MaskingKey} {bytes : Bytes}
      (reading : s.worker i = .handshaking) (out : (s.ws i).send key (dumps rt frame) = .ok bytes) :
      SocketStep rt (.greet i frame) s
        { s with worker := update s.worker i (.answering false [] bytes) }
  /-- The session handler registers its client and enters the loop. -/
  | join {s : Sockets} {i : Nat} {client : RegisteredClient} (reading : s.worker i = .handshaking)
      (fresh : client.session = none ∨
        ∃ keys compress, client.session = some (.new keys false compress)) :
      SocketStep rt (.join i client) s
        { s with
          client := update s.client i client
          worker := update s.worker i .looping
          registry := s.registry ++ [i] }
  /-- `recv` answers a ping with a pong. -/
  | ping {s : Sockets} {i : Nat} {joined : Bool} {payload bytes : Bytes} {key : MaskingKey}
      (reading : s.worker i = .idle joined) (short : payload.length ≤ 125)
      (out : (s.ws i).sendFrame key .pong payload = .ok bytes) :
      SocketStep rt (.ping i payload) s
        { s with worker := update s.worker i (.answering joined [] bytes) }
  /-- `recv` reads a close frame. -/
  | close {s : Sockets} {i : Nat} {joined : Bool} (reading : s.worker i = .idle joined) :
      SocketStep rt (.close i) s
        { s with
          ws := update s.ws i { s.ws i with closed := true }
          worker := update s.worker i .leaving }
  /-- The loop answers a message with an error frame. -/
  | reply {s : Sockets} {i : Nat} {message : WsMessage} {frame : Frame} {client : RegisteredClient}
      {key : MaskingKey} {bytes : Bytes} (reading : s.worker i = .looping)
      (body : messageLoopBody rt (s.client i) message = (.ok (.reply frame), client))
      (out : (s.ws i).send key (dumps rt frame) = .ok bytes) :
      SocketStep rt (.receive i message) s
        { s with
          client := update s.client i client
          worker := update s.worker i (.answering true [] bytes) }
  /-- The error frame cannot be sent. -/
  | replyFails {s : Sockets} {i : Nat} {message : WsMessage} {frame : Frame} {client : RegisteredClient}
      {key : MaskingKey} {exn : Exn} (reading : s.worker i = .looping)
      (body : messageLoopBody rt (s.client i) message = (.ok (.reply frame), client))
      (out : (s.ws i).send key (dumps rt frame) = .error exn) :
      SocketStep rt (.receive i message) s
        { s with
          client := update s.client i client
          worker := update s.worker i .leaving }
  /-- An exception that the loop does not catch. -/
  | crash {s : Sockets} {i : Nat} {message : WsMessage} {exn : Exn} {client : RegisteredClient}
      (reading : s.worker i = .looping)
      (body : messageLoopBody rt (s.client i) message = (.error exn, client)) :
      SocketStep rt (.receive i message) s
        { s with
          client := update s.client i client
          worker := update s.worker i .leaving }
  /-- The loop starts a broadcast to the registered clients other than the sender. -/
  | broadcast {s : Sockets} {i : Nat} {message : WsMessage} {text senderName : String}
      {client : RegisteredClient} {todo : List Nat} (reading : s.worker i = .looping)
      (body : messageLoopBody rt (s.client i) message = (.ok (.broadcast text senderName), client))
      (snapshot : todo.Perm (s.registry.filter (· ≠ i))) :
      SocketStep rt (.receive i message) s
        { s with
          client := update s.client i client
          worker := update s.worker i (.broadcasting { text, senderName, todo }) }
  /-- Reading from the socket fails, or the handshake does. -/
  | receiveFails {s : Sockets} {i : Nat} {joined : Bool} (reading : s.worker i = .idle joined) :
      SocketStep rt (.receiveFails i) s { s with worker := update s.worker i .leaving }
  /-- `deliver` takes the lock of the next recipient, makes the frame and starts to write it. -/
  | acquire {s : Sockets} {i r : Nat} {text senderName : String} {todo : List Nat}
      {result : Except Exn Frame} {client : RegisteredClient} {key : MaskingKey} {bytes : Bytes}
      (busy : s.worker i = .broadcasting { text, senderName, todo := r :: todo })
      (free : s.lock r = none) (frames : (s.client r).deliver rt text senderName = (result, client))
      (out : (result >>= fun frame => (s.ws r).send key (dumps rt frame)) = .ok bytes) :
      SocketStep rt (.acquire i r) s
        { s with
          client := update s.client r client
          lock := update s.lock r (some i)
          worker := update s.worker i (.delivering r [] bytes { text, senderName, todo }) }
  /-- `deliver` takes the lock and raises before it writes anything. -/
  | acquireFails {s : Sockets} {i r : Nat} {text senderName : String} {todo : List Nat}
      {result : Except Exn Frame} {client : RegisteredClient} {key : MaskingKey} {exn : Exn}
      (busy : s.worker i = .broadcasting { text, senderName, todo := r :: todo })
      (free : s.lock r = none) (frames : (s.client r).deliver rt text senderName = (result, client))
      (out : (result >>= fun frame => (s.ws r).send key (dumps rt frame)) = .error exn) :
      SocketStep rt (.acquire i r) s
        { s with
          client := update s.client r client
          worker := update s.worker i (.dropping r { text, senderName, todo }) }
  /-- `sendall` writes a piece of an answer. -/
  | writeAnswer {s : Sockets} {i : Nat} {joined : Bool} {written part rest : Bytes}
      (busy : s.worker i = .answering joined written (part ++ rest)) (nonempty : part ≠ [])
      (healthy : s.broken i = false) :
      SocketStep rt (.write i part) s
        { s with
          stream := update s.stream i (s.stream i ++ part)
          worker := update s.worker i (.answering joined (written ++ part) rest) }
  /-- `sendall` writes a piece of a relayed frame. -/
  | writeRelayed {s : Sockets} {i r : Nat} {written part rest : Bytes} {relay : Relay}
      (busy : s.worker i = .delivering r written (part ++ rest) relay) (nonempty : part ≠ [])
      (healthy : s.broken r = false) :
      SocketStep rt (.write i part) s
        { s with
          stream := update s.stream r (s.stream r ++ part)
          worker := update s.worker i (.delivering r (written ++ part) rest relay) }
  /-- The answer is written. -/
  | sentAnswer {s : Sockets} {i : Nat} {joined : Bool} {written : Bytes}
      (busy : s.worker i = .answering joined written []) :
      SocketStep rt (.sent i) s { s with worker := update s.worker i (.idle joined) }
  /-- The relayed frame is written, and `deliver` releases the lock. -/
  | sentRelayed {s : Sockets} {i r : Nat} {written : Bytes} {relay : Relay}
      (busy : s.worker i = .delivering r written [] relay) :
      SocketStep rt (.sent i) s
        { s with
          lock := update s.lock r none
          worker := update s.worker i (.broadcasting relay) }
  /-- `sendall` raises inside an answer. -/
  | answerFails {s : Sockets} {i : Nat} {joined : Bool} {written rest : Bytes}
      (busy : s.worker i = .answering joined written rest) (failed : s.broken i = true) :
      SocketStep rt (.writeFails i) s { s with worker := update s.worker i .leaving }
  /-- `sendall` raises inside `deliver`, which releases the lock. -/
  | relayFails {s : Sockets} {i r : Nat} {written rest : Bytes} {relay : Relay}
      (busy : s.worker i = .delivering r written rest relay) (failed : s.broken r = true) :
      SocketStep rt (.writeFails i) s
        { s with
          lock := update s.lock r none
          worker := update s.worker i (.dropping r relay) }
  /-- The `except` branch removes the recipient from the registry. -/
  | drop {s : Sockets} {i r : Nat} {relay : Relay} (busy : s.worker i = .dropping r relay) :
      SocketStep rt (.drop i) s
        { s with
          worker := update s.worker i (.broadcasting relay)
          registry := s.registry.erase r }
  /-- The broadcast is over. -/
  | finish {s : Sockets} {i : Nat} {text senderName : String}
      (busy : s.worker i = .broadcasting { text, senderName, todo := [] }) :
      SocketStep rt (.finish i) s { s with worker := update s.worker i .looping }
  /-- The session handler removes its client. -/
  | leave {s : Sockets} {i : Nat} (going : s.worker i = .leaving) :
      SocketStep rt (.leave i) s
        { s with
          worker := update s.worker i .ended
          registry := s.registry.erase i }
  /-- A socket fails. -/
  | breaks {s : Sockets} {i : Nat} :
      SocketStep rt (.breaks i) s { s with broken := update s.broken i true }

namespace Sockets

/-- The server before the first connection. -/
def start : Sockets where
  client _ := { name := "", session := none }
  ws _ := { isClient := false, closed := false }
  lock _ := none
  worker _ := .absent
  broken _ := false
  stream _ := []
  registry := []

/-- The states that runs reach in which every event is allowed where it happens. -/
inductive Run (rt : Runtime) (allowed : Sockets → SocketEvent → Prop) : Sockets → Prop where
  | start : Run rt allowed .start
  | step {s s' : Sockets} {event : SocketEvent} (run : Run rt allowed s) (ok : allowed s event)
      (step : SocketStep rt event s s') : Run rt allowed s'

/-- The connection's own thread has written a part of an answer, but not all of it. -/
def AnswerPartway (s : Sockets) (r : Nat) : Prop :=
  ∃ joined written rest, s.worker r = .answering joined written rest ∧ written ≠ [] ∧ rest ≠ []

/-- A thread has written a part of a relayed frame to the socket, but not all of it. -/
def RelayPartway (s : Sockets) (r : Nat) : Prop :=
  ∃ i written rest relay, s.worker i = .delivering r written rest relay ∧ written ≠ [] ∧ rest ≠ []

/-- Bytes of an answer are written only while no relayed frame is partly written to the socket, and
bytes of a relayed frame only while no answer is. -/
def Separate (s : Sockets) : SocketEvent → Prop
  | .write i _ =>
      match s.worker i with
      | .answering _ _ _ => ¬ s.RelayPartway i
      | .delivering r _ _ _ => ¬ s.AnswerPartway r
      | _ => True
  | _ => True

end Sockets

end Priestly
