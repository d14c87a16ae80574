/-
Module: Priestly.Transport.Closing
Layer: Transport
Purpose: The whole life of a `WebSocket` in `transport/ws.py`: `send`, `send_bytes`, `recv`, `close` and the
  exit of the context manager, on a socket that `close` gives back.
Imports: Priestly.Transport.Receive
Trusted boundary: `socket.close` gives the socket back also when it raises
Main exports: Connection, Connection.close, WsCall, Connection.perform, ConnectionCall, Connection.run
-/
import Priestly.Transport.Receive

namespace Priestly

open ByteCodec

/-- A `WebSocket`, and whether its socket has been closed. The flag `_closed` guards every use of the
socket, so that no call touches it once it is closed. -/
structure Connection where
  ep : WsEndpoint
  socketClosed : Bool

/-- A computation of a `WebSocket` that may close its socket. -/
abbrev ConnectionM := EStateM TransportExn Connection

namespace WsEndpoint

/-- The `sendall` of `close`, which does not go through `_send`. -/
def writeClose (payload : Bytes) : WsM Unit := do
  let ep ← get
  match encodeFrame .close payload (if ep.ws.isClient then some (ep.urandom ep.drawn) else none) with
  | .error exn => throw (sendError exn)
  | .ok frame =>
      set { ep with drawn := if ep.ws.isClient then ep.drawn + 1 else ep.drawn }
      onSocket (Socket.sendall frame)

/-- `except OSError: pass`. -/
def ignoringOSError (action : WsM Unit) : WsM Unit :=
  tryCatch action fun exn =>
    match exn with
    | .osError _ => return ()
    | exn => throw exn

end WsEndpoint

namespace Connection

/-- Use the `WebSocket` without closing its socket. -/
def onEndpoint {α : Type} (action : WsM α) : ConnectionM α := fun conn =>
  match action conn.ep with
  | .ok value ep => .ok value { conn with ep := ep }
  | .error exn ep => .error exn { conn with ep := ep }

/-- The `finally` of `close`. -/
def tearDown (ep : WsEndpoint) : Connection where
  ep := { ep with ws := { ep.ws with closed := true } }
  socketClosed := true

/-- `close`. The code is packed before the socket is used. -/
def close (code : Int) (reason : String) : ConnectionM Unit := fun conn =>
  if conn.ep.ws.closed then .ok () conn
  else
    match structPackH code with
    | .error exn => .error (WsEndpoint.sendError exn) conn
    | .ok packed =>
        match WsEndpoint.ignoringOSError (WsEndpoint.writeClose (packed ++ utf8Encode reason)) conn.ep with
        | .ok _ ep => .ok () (tearDown ep)
        | .error exn ep => .error exn (tearDown ep)

/-- `__exit__`. -/
def «exit» : ConnectionM Unit := close 1000 ""

end Connection

/-- A call of a method. -/
inductive WsCall where
  | send (text : String)
  | sendBytes (data : Bytes)
  | recv
  | close (code : Int) (reason : String)
  | «exit»
deriving DecidableEq, Repr

namespace WsCall

/-- The opcode of the frames a call writes. -/
def opcode : WsCall → Opcode
  | send _ => .text
  | sendBytes _ => .binary
  | recv => .pong
  | close _ _ | «exit» => .close

/-- Whether a call closes. -/
def closes : WsCall → Bool
  | close _ _ | «exit» => true
  | send _ | sendBytes _ | recv => false

end WsCall

/-- A call of a method; only `recv` returns something. -/
def Connection.perform : WsCall → ConnectionM (Option WsMessage)
  | .send text => do
      Connection.onEndpoint (WsEndpoint.sendFrame .text (utf8Encode text))
      return none
  | .sendBytes data => do
      Connection.onEndpoint (WsEndpoint.sendFrame .binary data)
      return none
  | .recv => do return some (← Connection.onEndpoint WsEndpoint.recv)
  | .close code reason => do
      Connection.close code reason
      return none
  | .exit => do
      Connection.exit
      return none

/-- A call with the states before and after it. -/
structure ConnectionCall where
  method : WsCall
  before : Connection
  result : Except TransportExn (Option WsMessage)
  after : Connection

/-- What a call does. -/
def Connection.call (before : Connection) (method : WsCall) : ConnectionCall :=
  match Connection.perform method before with
  | .ok value after => { method, before, result := .ok value, after }
  | .error exn after => { method, before, result := .error exn, after }

/-- Calls in a row, also behind calls that raise. -/
def Connection.run : Connection → List WsCall → List ConnectionCall
  | _, [] => []
  | conn, method :: methods => conn.call method :: run (conn.call method).after methods

end Priestly
