/-
Module: Priestly.Transport.Socket
Layer: Transport
Purpose: The connected socket under `transport/ws.py`: the bytes of the peer arrive in pieces of any size
  and end in an end of stream or an error, and each `sendall` may fail. Over it the exceptions of the
  transport layer and `_recv_exact`.
Imports: Priestly.Lib.Pieces, Priestly.Lib.Bytes
Trusted boundary: `Socket.recv` and `Socket.sendall` stand for the standard library
Main exports: TransportExn, Memory, Socket, Socket.recv, Socket.sendall, Socket.recvExact
-/
import Priestly.Lib.Bytes
import Priestly.Lib.Pieces

namespace Priestly

open ByteCodec

/-! ### Exceptions -/

/-- The exceptions of the transport layer, its own and those of the library functions it calls. The two
Unicode errors carry the object that could not be coded. -/
inductive TransportExn where
  | connectionClosed (code : Option Nat) (reason : String)
  | protocolError (text : String)
  | osError (text : String)
  | structError (text : String)
  | overflowError (text : String)
  | memoryError
  | unicodeDecodeError (object : Bytes)
  | unicodeEncodeError (object : String)
deriving DecidableEq, Repr

/-! ### The socket -/

/-- What the process at one end can allocate, by the largest `bytes` object it gets. Only `recv`, whose
argument is the peer's choice, is held against it. The reads of a frame header and the payload of a control
frame always fit, and no `bytes` object is larger than CPython stores. -/
structure Memory where
  largest : Nat
  small : 125 ≤ largest
  stored : largest ≤ 2 ^ 63 - 34
deriving DecidableEq, Repr

namespace Memory

/-- `recv` allocates its result before it reads, on a plain and on a TLS socket alike: the exception when
that fails. -/
def refusal (n : Nat) : TransportExn :=
  if n ≤ 2 ^ 63 - 34 then .memoryError
  else if n < 2 ^ 63 then .overflowError "byte string is too large"
  else .overflowError "Python int too large to convert to C ssize_t"

/-- The small reads of a frame header are served. -/
theorem eight_le_largest (memory : Memory) : 8 ≤ memory.largest :=
  Nat.le_trans (by decide) memory.small

theorem refusal_cases (n : Nat) :
    refusal n = .memoryError ∨ ∃ text, refusal n = .overflowError text := by
  unfold refusal
  split
  · exact .inl rfl
  · split
    · exact .inr ⟨_, rfl⟩
    · exact .inr ⟨_, rfl⟩

theorem refusal_ne_protocolError (n : Nat) (text : String) : refusal n ≠ .protocolError text := by
  intro h
  rcases refusal_cases n with hmemory | ⟨_, hoverflow⟩
  · cases hmemory.symm.trans h
  · cases hoverflow.symm.trans h

theorem refusal_ne_connectionClosed (n : Nat) (code : Option Nat) (reason : String) :
    refusal n ≠ .connectionClosed code reason := by
  intro h
  rcases refusal_cases n with hmemory | ⟨_, hoverflow⟩
  · cases hmemory.symm.trans h
  · cases hoverflow.symm.trans h

/-- A process that can allocate a gibibyte. -/
def gibibyte : Memory where
  largest := 2 ^ 30
  small := by decide
  stored := by decide

end Memory

/-- A `sendall` that fails: how many bytes it has written before, and the text of the `OSError`. -/
structure WriteFault where
  taken : Nat
  text : String
deriving DecidableEq, Repr

/-- A connected socket, of a process with this memory. Reading behind the last piece gives the end of the
stream, or an `OSError` when `ending` has a text. `faults` says of the coming calls of `sendall` which of
them fail; a call that it does not mention succeeds. -/
structure Socket where
  memory : Memory
  pieces : List (Piece UInt8)
  ending : Option String
  faults : List (Option WriteFault)
  written : Bytes
deriving DecidableEq, Repr

/-- A computation over a socket. An exception leaves the socket as it is at that point. -/
abbrev SocketM := EStateM TransportExn Socket

namespace Socket

/-- The bytes that are still to be read. -/
def rest (sock : Socket) : Bytes := Piece.flat sock.pieces

/-- `sock.recv(n)`. -/
def recv (n : Nat) : SocketM Bytes := do
  let sock ← get
  if sock.memory.largest < n then throw (Memory.refusal n)
  else
    match sock.pieces, sock.ending with
    | [], none => return []
    | [], some text => throw (.osError text)
    | _ :: _, _ =>
        set { sock with pieces := (Piece.read n sock.pieces).2 }
        return (Piece.read n sock.pieces).1

/-- `sock.sendall(data)`. -/
def sendall (data : Bytes) : SocketM Unit := do
  let sock ← get
  match sock.faults with
  | some fault :: faults =>
      set { sock with faults := faults, written := sock.written ++ data.take fault.taken }
      throw (.osError fault.text)
  | _ => set { sock with faults := sock.faults.tail, written := sock.written ++ data }

/-! ### Reading -/

/-- `recv` with an `OSError` turned into a `ConnectionClosed`. -/
def recvOrClosed (label : String) (n : Nat) : SocketM Bytes :=
  tryCatch (recv n) fun exn =>
    match exn with
    | .osError text => throw (.connectionClosed none s!"{label}: {text}")
    | exn => throw exn

/-- The loop of `_recv_exact`. A round after which bytes are still missing uses up a piece. -/
def recvExactLoop (n : Nat) : Nat → Bytes → SocketM Bytes
  | 0, buf => return buf
  | rounds + 1, buf =>
      if buf.length < n then do
        let chunk ← recvOrClosed "socket error" (n - buf.length)
        if chunk = [] then throw (.connectionClosed none "stream ended mid-frame")
        else recvExactLoop n rounds (buf ++ chunk)
      else return buf

/-- `_recv_exact`: one round more than there are pieces is enough. -/
def recvExact (n : Nat) : SocketM Bytes := do
  recvExactLoop n ((← get).pieces.length + 1) []

end Socket

end Priestly
