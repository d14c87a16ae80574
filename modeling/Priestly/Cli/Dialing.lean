/-
Module: Priestly.Cli.Dialing
Layer: Cli
Purpose: A connection from the moment it is accepted: `WSSClient.connect` at one end and
  `WSSServer._serve_connection` at the other, each of which takes its socket through the opening handshake
  and goes on with a driver over the `WebSocket` it has made. As in `Protocol.ByteLink`, bytes arrive in
  pieces of any size and nothing is assumed of the order of the steps.
Imports: Priestly.Protocol.ByteLink, Priestly.Transport.Handshake, Priestly.Proofs.OpeningAgreement
Trusted boundary: the connection is not closed and loses no bytes; a socket is the plain one, or the TLS
  socket around it after its own handshake
Main exports: Opening, DialEnd, DialEndStep, Dial, DialStep, dialling, serving, clientHandshake_eq
-/
import Priestly.Proofs.OpeningAgreement
import Priestly.Protocol.ByteLink

namespace Priestly

open ByteCodec Interaction

/-! ### One end -/

/-- More bytes have arrived. -/
def Socket.arrive (more : List (Piece UInt8)) (sock : Socket) : Socket :=
  { sock with pieces := sock.pieces ++ more }

/-- What a call has written. -/
def Socket.emitted (before after : Socket) : Bytes := after.written.drop before.written.length

/-- What an end does with its socket: the call that it waits for, and then `WebSocket(conn, is_client)` with
the driver over it. -/
structure Opening (α : Type) where
  call : SocketM Headers
  isClient : Bool
  urandom : Nat → MaskingKey
  program : Driver α

/-- The `WebSocket` over a socket. -/
def Opening.endpoint {α : Type} (next : Opening α) (sock : Socket) : WsEndpoint where
  ws := { isClient := next.isClient, closed := false }
  sock := sock
  urandom := next.urandom
  drawn := 0

/-- An end that opens its connection. -/
inductive DialEnd (α : Type) where
  /-- It has its request to write. -/
  | requesting (request : Bytes) (next : Opening α) (sock : Socket)
  | opening (next : Opening α) (sock : Socket)
  | running (pipe : PipeEnd α)
  /-- An exception has left the opening handshake. -/
  | failed (exn : TransportExn)

/-- Bytes that arrive at an end. -/
def DialEnd.arrive {α : Type} (piece : Piece UInt8) : DialEnd α → DialEnd α
  | requesting request next sock => requesting request next (sock.arrive [piece])
  | opening next sock => opening next (sock.arrive [piece])
  | running pipe => running { pipe with ep := pipe.ep.arrive [piece] }
  | failed exn => failed exn

section Ends

variable (rt : Runtime) {α : Type}

/-- A step of an end, with the bytes that leave it. As in `EndStep`, a read that lacks bytes waits. -/
inductive DialEndStep : DialEnd α → Bytes → DialEnd α → Prop where
  | requested {request : Bytes} {next : Opening α} {sock sock' : Socket}
      (call : Socket.sendall request sock = .ok () sock') :
      DialEndStep (.requesting request next sock) (sock.emitted sock') (.opening next sock')
  | requestRaised {request : Bytes} {next : Opening α} {sock sock' : Socket} {exn : TransportExn}
      (call : Socket.sendall request sock = .error exn sock') :
      DialEndStep (.requesting request next sock) (sock.emitted sock') (.failed exn)
  | opened {next : Opening α} {sock sock' : Socket} {headers : Headers}
      (call : next.call sock = .ok headers sock') :
      DialEndStep (.opening next sock) (sock.emitted sock')
        (.running ⟨next.program, next.endpoint sock'⟩)
  | openRaised {next : Opening α} {sock sock' : Socket} {exn : TransportExn}
      (call : next.call sock = .error exn sock')
      (settled : ∀ more, ∃ sock'', next.call (sock.arrive more) = .error exn sock'') :
      DialEndStep (.opening next sock) (sock.emitted sock') (.failed exn)
  | ran {pipe pipe' : PipeEnd α} {bytes : Bytes} (step : EndStep rt pipe bytes pipe') :
      DialEndStep (.running pipe) bytes (.running pipe')

end Ends

/-! ### Two ends -/

/-- Two ends with the bytes on their way to each. -/
structure Dial (α β : Type) where
  client : DialEnd α
  server : DialEnd β
  toClient : Bytes
  toServer : Bytes

/-- One step of the connection. -/
inductive DialStep (rt : Runtime) {α β : Type} : Dial α β → Dial α β → Prop where
  | client {client client' : DialEnd α} {server : DialEnd β} {toClient toServer bytes : Bytes}
      (step : DialEndStep rt client bytes client') :
      DialStep rt ⟨client, server, toClient, toServer⟩ ⟨client', server, toClient, toServer ++ bytes⟩
  | server {client : DialEnd α} {server server' : DialEnd β} {toClient toServer bytes : Bytes}
      (step : DialEndStep rt server bytes server') :
      DialStep rt ⟨client, server, toClient, toServer⟩ ⟨client, server', toClient ++ bytes, toServer⟩
  | arriveClient {client : DialEnd α} {server : DialEnd β} {piece : Piece UInt8} {toClient toServer : Bytes} :
      DialStep rt ⟨client, server, piece.items ++ toClient, toServer⟩
        ⟨client.arrive piece, server, toClient, toServer⟩
  | arriveServer {client : DialEnd α} {server : DialEnd β} {piece : Piece UInt8} {toClient toServer : Bytes} :
      DialStep rt ⟨client, server, toClient, piece.items ++ toServer⟩
        ⟨client, server.arrive piece, toClient, toServer⟩

/-! ### The two sides of the program -/

section Sides

variable {α : Type}

/-- `WSSClient.connect` behind the TCP connection. The request is built before anything is written. -/
def dialling (nonce : Vector UInt8 16) (host path : List Char) (urandom : Nat → MaskingKey) (program : Driver α)
    (sock : Socket) : DialEnd α :=
  match latin1Encode (handshakeRequest host path (clientKey nonce)) with
  | .error exn => .failed exn
  | .ok request => .requesting request { call := awaitResponse nonce, isClient := true, urandom, program } sock

/-- `WSSServer._serve_connection` with an accepted connection. -/
def serving (urandom : Nat → MaskingKey) (program : Driver α) (sock : Socket) : DialEnd α :=
  .opening { call := serverHandshake, isClient := false, urandom, program } sock

/-- The two parts of `client_handshake`: the request, and the wait for the response. -/
theorem clientHandshake_eq {nonce : Vector UInt8 16} {host path : List Char} {request : Bytes}
    (h : latin1Encode (handshakeRequest host path (clientKey nonce)) = .ok request) :
    clientHandshake nonce host path = (do Socket.sendall request; awaitResponse nonce) := by
  have hencode : latin1Encode (handshakeRequest host path (b64encode nonce.toList).toList) = .ok request := h
  unfold clientHandshake
  simp only [hencode]
  rfl

end Sides

/-- The connection when both sides have their sockets. -/
def Dial.start {α β : Type} (client : DialEnd α) (server : DialEnd β) : Dial α β where
  client := client
  server := server
  toClient := []
  toServer := []

/-- A connection that is open at both ends. -/
def Dial.ofLink {α β : Type} (link : ByteLink α β) : Dial α β where
  client := .running link.left
  server := .running link.right
  toClient := link.toLeft
  toServer := link.toRight

end Priestly
