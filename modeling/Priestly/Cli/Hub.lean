/-
Module: Priestly.Cli.Hub
Layer: Cli
Purpose: The running chat server: any number of connections, each with its own thread in the message
  loop, and the registry they share. A thread takes a message, or takes one step of the broadcast it is
  in; delivering to a client is one step, as the client's lock makes it. Sockets fail at any time. The
  broadcasts made and what was written to each socket are kept as history.
Imports: Priestly.Cli.Server
Trusted boundary: none
Main exports: Thread, Hub, HubEvent, HubStep, Hub.Run
-/
import Mathlib.Logic.Function.Basic
import Priestly.Cli.Server

namespace Priestly

/-- Why a thread has left the message loop. -/
inductive Ending where
  | socketFailed
  | raised (exn : Exn)
deriving DecidableEq, Repr

/-- Where the thread of a connection stands. In a broadcast it carries the number of the broadcast and
the recipients that are still to be served; `dropping` is the `except` branch for one of them, and
`leaving` the `finally` of the session handler. -/
inductive Thread where
  | absent
  | looping
  | broadcasting (number : Nat) (todo : List Nat)
  | dropping (recipient number : Nat) (todo : List Nat)
  | leaving (ending : Ending)
  | ended (ending : Ending)
deriving DecidableEq, Repr

/-- One call of `broadcast`, with the clients that were registered when it took its snapshot. -/
structure Broadcast where
  sender : Nat
  text : String
  senderName : String
  registered : List Nat
deriving DecidableEq, Repr

/-- What has been written to a socket: a reply of the connection's own thread, or the frame of a
broadcast. -/
inductive Written where
  | reply (frame : Frame)
  | relayed (number : Nat) (frame : Frame)
deriving DecidableEq, Repr

/-- The state of the server. Connections are numbered; a number that no connection has taken is
absent. -/
structure Hub where
  client : Nat → RegisteredClient
  thread : Nat → Thread
  broken : Nat → Bool
  written : Nat → List Written
  registry : List Nat
  broadcasts : List Broadcast

/-- What may happen. -/
inductive HubEvent where
  | join (i : Nat) (client : RegisteredClient)
  | receive (i : Nat) (message : WsMessage)
  | receiveFails (i : Nat)
  | deliver (i : Nat) (recipient number : Nat)
  | drop (i : Nat)
  | finish (i : Nat)
  | leave (i : Nat)
  | breaks (i : Nat)

open Function in
/-- The steps of the server. -/
inductive HubStep (rt : Runtime) : HubEvent → Hub → Hub → Prop where
  /-- The session handler registers a connection and enters the loop, on an open node without a session
  and on a protected one with the session of the handshake. -/
  | join {s : Hub} {i : Nat} {client : RegisteredClient} (free : s.thread i = .absent)
      (fresh : client.session = none ∨
        ∃ keys compress, client.session = some (.new keys false compress)) :
      HubStep rt (.join i client) s
        { s with
          client := update s.client i client
          thread := update s.thread i .looping
          registry := s.registry ++ [i] }
  /-- The loop writes an error frame back. -/
  | reply {s : Hub} {i : Nat} {message : WsMessage} {frame : Frame} {client : RegisteredClient}
      (looping : s.thread i = .looping)
      (body : messageLoopBody rt (s.client i) message = (.ok (.reply frame), client))
      (healthy : s.broken i = false) :
      HubStep rt (.receive i message) s
        { s with
          client := update s.client i client
          written := update s.written i (s.written i ++ [.reply frame]) }
  /-- The loop cannot write its error frame. -/
  | replyFails {s : Hub} {i : Nat} {message : WsMessage} {frame : Frame} {client : RegisteredClient}
      (looping : s.thread i = .looping)
      (body : messageLoopBody rt (s.client i) message = (.ok (.reply frame), client))
      (failed : s.broken i = true) :
      HubStep rt (.receive i message) s
        { s with
          client := update s.client i client
          thread := update s.thread i (.leaving .socketFailed) }
  /-- An exception that the loop does not catch. -/
  | crash {s : Hub} {i : Nat} {message : WsMessage} {exn : Exn} {client : RegisteredClient}
      (looping : s.thread i = .looping)
      (body : messageLoopBody rt (s.client i) message = (.error exn, client)) :
      HubStep rt (.receive i message) s
        { s with
          client := update s.client i client
          thread := update s.thread i (.leaving (.raised exn)) }
  /-- The loop starts a broadcast: the recipients are the registered clients other than the sender, in
  the order the set yields them. -/
  | broadcast {s : Hub} {i : Nat} {message : WsMessage} {text senderName : String}
      {client : RegisteredClient} {todo : List Nat} (looping : s.thread i = .looping)
      (body : messageLoopBody rt (s.client i) message = (.ok (.broadcast text senderName), client))
      (snapshot : todo.Perm (s.registry.filter (· ≠ i))) :
      HubStep rt (.receive i message) s
        { s with
          client := update s.client i client
          thread := update s.thread i (.broadcasting s.broadcasts.length todo)
          broadcasts := s.broadcasts ++ [{ sender := i, text, senderName, registered := s.registry }] }
  /-- Reading from the socket fails. -/
  | receiveFails {s : Hub} {i : Nat} (looping : s.thread i = .looping) :
      HubStep rt (.receiveFails i) s
        { s with thread := update s.thread i (.leaving .socketFailed) }
  /-- `deliver` writes the frame to the next recipient. -/
  | deliver {s : Hub} {i r b : Nat} {todo : List Nat} {message : Broadcast} {frame : Frame}
      {client : RegisteredClient} (busy : s.thread i = .broadcasting b (r :: todo))
      (log : s.broadcasts[b]? = some message)
      (frames : (s.client r).deliver rt message.text message.senderName = (.ok frame, client))
      (healthy : s.broken r = false) :
      HubStep rt (.deliver i r b) s
        { s with
          client := update s.client r client
          written := update s.written r (s.written r ++ [.relayed b frame])
          thread := update s.thread i (.broadcasting b todo) }
  /-- `deliver` raises, because it cannot make the frame or cannot write it. -/
  | deliverFails {s : Hub} {i r b : Nat} {todo : List Nat} {message : Broadcast}
      {result : Except Exn Frame} {client : RegisteredClient}
      (busy : s.thread i = .broadcasting b (r :: todo)) (log : s.broadcasts[b]? = some message)
      (frames : (s.client r).deliver rt message.text message.senderName = (result, client))
      (failed : (∃ exn, result = .error exn) ∨ s.broken r = true) :
      HubStep rt (.deliver i r b) s
        { s with
          client := update s.client r client
          thread := update s.thread i (.dropping r b todo) }
  /-- The `except` branch removes the recipient from the registry. -/
  | drop {s : Hub} {i r b : Nat} {todo : List Nat} (busy : s.thread i = .dropping r b todo) :
      HubStep rt (.drop i) s
        { s with
          thread := update s.thread i (.broadcasting b todo)
          registry := s.registry.erase r }
  /-- The broadcast is over and the loop waits for the next message. -/
  | finish {s : Hub} {i b : Nat} (busy : s.thread i = .broadcasting b []) :
      HubStep rt (.finish i) s { s with thread := update s.thread i .looping }
  /-- The session handler removes its client from the registry. -/
  | leave {s : Hub} {i : Nat} {ending : Ending} (going : s.thread i = .leaving ending) :
      HubStep rt (.leave i) s
        { s with
          thread := update s.thread i (.ended ending)
          registry := s.registry.erase i }
  /-- A socket fails. -/
  | breaks {s : Hub} {i : Nat} :
      HubStep rt (.breaks i) s { s with broken := update s.broken i true }

namespace Hub

/-- The server before the first connection. -/
def start : Hub where
  client _ := { name := "", session := none }
  thread _ := .absent
  broken _ := false
  written _ := []
  registry := []
  broadcasts := []

/-- The states that runs reach in which every event is allowed where it happens. -/
inductive Run (rt : Runtime) (allowed : Hub → HubEvent → Prop) : Hub → Prop where
  | start : Run rt allowed .start
  | step {s s' : Hub} {event : HubEvent} (run : Run rt allowed s) (ok : allowed s event)
      (step : HubStep rt event s s') : Run rt allowed s'

/-- A run that keeps a condition keeps every weaker one. -/
theorem Run.mono {rt : Runtime} {allowed allowed' : Hub → HubEvent → Prop} {s : Hub}
    (h : Run rt allowed s) (weaker : ∀ s event, allowed s event → allowed' s event) :
    Run rt allowed' s := by
  induction h with
  | start => exact .start
  | step _ ok hstep ih => exact .step ih (weaker _ _ ok) hstep

end Hub

end Priestly
