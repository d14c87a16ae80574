/-
Module: Priestly.Proofs.SocketReads
Layer: Proofs
Purpose: What `_recv_exact` gets does not depend on how the stream is cut into pieces: it takes the first
  bytes of what is left, or raises because they are not there.
Imports: Priestly.Lib.StateExcept, Priestly.Transport.Socket
Trusted boundary: none
Main exports: Socket.Left, Socket.endReason, Socket.recvExact_ok, Socket.recvExact_closed, Socket.recvExact_refused,
  Socket.Works
-/
import Priestly.Lib.StateExcept
import Priestly.Transport.Socket

namespace Priestly

open ByteCodec

namespace Socket

variable {sock sock' : Socket} {n : Nat}

/-- The socket later on, when nothing but reading has happened: `rest` is what it has left to read. -/
structure Left (sock sock' : Socket) (rest : Bytes) : Prop where
  memory : sock'.memory = sock.memory
  ending : sock'.ending = sock.ending
  faults : sock'.faults = sock.faults
  written : sock'.written = sock.written
  rest : sock'.rest = rest

theorem Left.refl (sock : Socket) : sock.Left sock sock.rest := ⟨rfl, rfl, rfl, rfl, rfl⟩

theorem Left.trans {sock'' : Socket} {rest rest' : Bytes} (h : sock.Left sock' rest)
    (h' : sock'.Left sock'' rest') : sock.Left sock'' rest' where
  memory := h'.memory.trans h.memory
  ending := h'.ending.trans h.ending
  faults := h'.faults.trans h.faults
  written := h'.written.trans h.written
  rest := h'.rest

/-- What a read says at the end of the stream. -/
def endReason (sock : Socket) (label quiet : String) : String :=
  match sock.ending with
  | none => quiet
  | some text => s!"{label}: {text}"

/-- The socket after one read of at most `n` bytes. -/
def advance (sock : Socket) (n : Nat) : Socket := { sock with pieces := (Piece.read n sock.pieces).2 }

/-- A read from a socket that has pieces left. -/
theorem recvOrClosed_piece (label : String) (hn : n ≤ sock.memory.largest) (hne : sock.pieces ≠ []) :
    recvOrClosed label n sock = .ok (Piece.read n sock.pieces).1 (sock.advance n) := by
  have hrecv : recv n sock = .ok (Piece.read n sock.pieces).1 (sock.advance n) := by
    rw [recv, StateExcept.get_bind, if_neg (Nat.not_lt.mpr hn), advance]
    cases hpieces : sock.pieces with
    | nil => exact absurd hpieces hne
    | cons piece pieces => rfl
  simp only [recvOrClosed, tryCatch, tryCatchThe, MonadExceptOf.tryCatch, EStateM.tryCatch, hrecv]

/-- A read of more than the process can hold. -/
theorem recvOrClosed_refused (label : String) (hn : sock.memory.largest < n) :
    recvOrClosed label n sock = .error (Memory.refusal n) sock := by
  have hrecv : recv n sock = .error (Memory.refusal n) sock := by
    rw [recv, StateExcept.get_bind, if_pos hn]
    rfl
  simp only [recvOrClosed, tryCatch, tryCatchThe, MonadExceptOf.tryCatch, EStateM.tryCatch, hrecv]
  rcases Memory.refusal_cases n with hmemory | ⟨text, hoverflow⟩
  · rw [hmemory]
    rfl
  · rw [hoverflow]
    rfl

/-- A read at the end of the stream raises, or gets nothing, which its caller turns into an
exception. -/
theorem recvOrClosed_end (label quiet : String) (hn : n ≤ sock.memory.largest) (hend : sock.pieces = [])
    {α : Type} (next : Bytes → SocketM α) :
    (recvOrClosed label n >>= fun chunk =>
      if chunk = [] then throw (.connectionClosed none quiet) else next chunk) sock =
      .error (.connectionClosed none (sock.endReason label quiet)) sock := by
  cases hending : sock.ending with
  | none =>
      have hrecv : recv n sock = .ok [] sock := by
        rw [recv, StateExcept.get_bind, if_neg (Nat.not_lt.mpr hn), hend, hending]
        rfl
      have hread : recvOrClosed label n sock = .ok [] sock := by
        simp only [recvOrClosed, tryCatch, tryCatchThe, MonadExceptOf.tryCatch, EStateM.tryCatch, hrecv]
      rw [StateExcept.bind_ok hread, if_pos rfl, endReason, hending]
      rfl
  | some text =>
      have hrecv : recv n sock = .error (.osError text) sock := by
        rw [recv, StateExcept.get_bind, if_neg (Nat.not_lt.mpr hn), hend, hending]
        rfl
      have hread : recvOrClosed label n sock =
          .error (.connectionClosed none (sock.endReason label quiet)) sock := by
        simp only [recvOrClosed, tryCatch, tryCatchThe, MonadExceptOf.tryCatch, EStateM.tryCatch, hrecv]
        rw [endReason, hending]
        rfl
      exact StateExcept.bind_error hread

/-- One read takes some of the bytes that are wanted. -/
theorem advance_rest {bytes more : Bytes} (hlen : bytes.length = n) (hrest : sock.rest = bytes ++ more) :
    ∃ bytes', bytes = (Piece.read n sock.pieces).1 ++ bytes' ∧
      sock.Left (sock.advance n) (bytes' ++ more) := by
  have hall := (Piece.read_append n sock.pieces).trans hrest
  have hle := Piece.length_read_le n sock.pieces
  rw [← hlen] at hle
  have hprefix : (Piece.read n sock.pieces).1 <+: bytes ++ more := ⟨_, hall⟩
  obtain ⟨bytes', rfl⟩ := List.prefix_of_prefix_length_le hprefix (List.prefix_append bytes more)
    (hlen ▸ hle)
  rw [List.append_assoc] at hall
  exact ⟨bytes', rfl, rfl, rfl, rfl, rfl, List.append_cancel_left hall⟩

/-- The loop ends when the bytes are there. -/
theorem recvExactLoop_done {buf : Bytes} (h : n ≤ buf.length) (rounds : Nat) :
    recvExactLoop n rounds buf sock = .ok buf sock := by
  cases rounds with
  | zero => rfl
  | succ rounds =>
      rw [recvExactLoop, if_neg (Nat.not_lt.mpr h)]
      rfl

/-- The loop ends with the bytes that come next. -/
theorem recvExactLoop_ok {more : Bytes} (rounds : Nat) (buf bytes : Bytes)
    (hrounds : sock.pieces.length < rounds) (hmax : n ≤ sock.memory.largest)
    (hrest : sock.rest = bytes ++ more) (hlen : buf.length + bytes.length = n) :
    ∃ sock', recvExactLoop n rounds buf sock = .ok (buf ++ bytes) sock' ∧ sock.Left sock' more := by
  induction rounds generalizing buf bytes sock with
  | zero => omega
  | succ rounds ih =>
      by_cases hdone : bytes = []
      · subst hdone
        refine ⟨sock, ?_, rfl, rfl, rfl, rfl, hrest⟩
        rw [recvExactLoop_done (by simp at hlen; omega), List.append_nil]
      · have hpos := List.length_pos_of_ne_nil hdone
        have hne : sock.pieces ≠ [] := by
          intro hnil
          rw [rest, hnil] at hrest
          exact hdone (List.append_eq_nil_iff.mp hrest.symm).1
        have hwant : bytes.length = n - buf.length := by omega
        obtain ⟨bytes', hbytes, hleft⟩ := advance_rest hwant hrest
        have hgot : (Piece.read (n - buf.length) sock.pieces).1 ≠ [] := by
          rw [ne_eq, Piece.read_eq_nil (by omega)]
          exact hne
        have hread := recvOrClosed_piece "socket error" (n := n - buf.length) (by omega) hne
        rw [recvExactLoop, if_pos (by omega), StateExcept.bind_ok hread, if_neg hgot]
        have hsplit := congrArg List.length hbytes
        rw [List.length_append] at hsplit
        by_cases hlast : bytes' = []
        · subst hlast
          rw [List.append_nil] at hbytes
          refine ⟨_, ?_, hleft⟩
          rw [recvExactLoop_done, ← hbytes]
          rw [List.length_append, ← hbytes]
          omega
        · have hmore := List.length_pos_of_ne_nil hlast
          have hfewer : (sock.advance (n - buf.length)).pieces.length < rounds := by
            have := Piece.length_read_lt (n := n - buf.length) hne (by omega)
            exact lt_of_lt_of_le this (by omega)
          obtain ⟨sock', hloop, hleft'⟩ := ih (buf ++ (Piece.read (n - buf.length) sock.pieces).1) bytes'
            hfewer hmax hleft.rest (by rw [List.length_append]; omega)
          refine ⟨sock', ?_, hleft.trans hleft'⟩
          rw [hloop, List.append_assoc, ← hbytes]

/-- The loop raises when the stream ends too early. -/
theorem recvExactLoop_closed (rounds : Nat) (buf : Bytes) (hrounds : sock.pieces.length < rounds)
    (hmax : n ≤ sock.memory.largest) (hshort : buf.length + sock.rest.length < n) :
    ∃ sock', recvExactLoop n rounds buf sock = .error (.connectionClosed none
      (sock.endReason "socket error" "stream ended mid-frame")) sock' ∧ sock.Left sock' [] := by
  induction rounds generalizing buf sock with
  | zero => omega
  | succ rounds ih =>
      rw [recvExactLoop, if_pos (by omega)]
      by_cases hend : sock.pieces = []
      · refine ⟨sock, recvOrClosed_end _ _ (by omega) hend _, ?_⟩
        exact ⟨rfl, rfl, rfl, rfl, Piece.flat_eq_nil.mpr hend⟩
      · have hread := recvOrClosed_piece "socket error" (n := n - buf.length) (by omega) hend
        have hgot : (Piece.read (n - buf.length) sock.pieces).1 ≠ [] := by
          rw [ne_eq, Piece.read_eq_nil (by omega)]
          exact hend
        rw [StateExcept.bind_ok hread, if_neg hgot]
        have hall := congrArg List.length (Piece.read_append (n - buf.length) sock.pieces)
        rw [List.length_append] at hall
        have hleft : sock.Left (sock.advance (n - buf.length)) (sock.advance (n - buf.length)).rest :=
          ⟨rfl, rfl, rfl, rfl, rfl⟩
        have hrest : (sock.advance (n - buf.length)).rest =
          Piece.flat (Piece.read (n - buf.length) sock.pieces).2 := rfl
        have htotal : sock.rest.length = (Piece.flat sock.pieces).length := rfl
        have hfewer : (sock.advance (n - buf.length)).pieces.length < rounds := by
          have := Piece.length_read_lt (n := n - buf.length) hend (by omega)
          exact lt_of_lt_of_le this (by omega)
        obtain ⟨sock', hloop, hleft'⟩ := ih (buf ++ (Piece.read (n - buf.length) sock.pieces).1)
          hfewer hmax (by rw [List.length_append, hrest]; omega)
        exact ⟨sock', hloop, hleft.trans hleft'⟩

/-! ### _recv_exact -/

/-- The bytes that come next, however they arrive. -/
theorem recvExact_ok {bytes more : Bytes} (hrest : sock.rest = bytes ++ more)
    (hmax : bytes.length ≤ sock.memory.largest) :
    ∃ sock', recvExact bytes.length sock = .ok bytes sock' ∧ sock.Left sock' more := by
  apply recvExactLoop_ok _ [] bytes (Nat.lt_succ_self _) hmax hrest
  simp

/-- A stream that ends before the bytes are complete. -/
theorem recvExact_closed (hmax : n ≤ sock.memory.largest) (hshort : sock.rest.length < n) :
    ∃ sock', recvExact n sock = .error (.connectionClosed none
      (sock.endReason "socket error" "stream ended mid-frame")) sock' ∧ sock.Left sock' [] := by
  apply recvExactLoop_closed _ [] (Nat.lt_succ_self _) hmax
  simpa using hshort

/-- More bytes than the process can hold. -/
theorem recvExact_refused (hmax : sock.memory.largest < n) :
    recvExact n sock = .error (Memory.refusal n) sock := by
  have hloop : recvExactLoop n (sock.pieces.length + 1) [] sock =
      .error (Memory.refusal n) sock := by
    have hpos : ([] : Bytes).length < n := Nat.lt_of_le_of_lt (Nat.zero_le _) hmax
    rw [recvExactLoop, if_pos hpos]
    exact StateExcept.bind_error (recvOrClosed_refused "socket error" hmax)
  exact hloop

/-! ### Writing -/

/-- Every write goes through. -/
def Works (sock : Socket) : Prop := ∀ fault ∈ sock.faults, fault = none

theorem Works.of_faults (h : sock.Works) (hfaults : sock'.faults ⊆ sock.faults) : sock'.Works :=
  fun fault hfault => h fault (hfaults hfault)

/-- `sendall` on a working socket. -/
theorem Works.sendall (h : sock.Works) (data : Bytes) :
    Socket.sendall data sock =
      .ok () { sock with faults := sock.faults.tail, written := sock.written ++ data } := by
  rw [Socket.sendall, StateExcept.get_bind]
  rcases hfaults : sock.faults with _ | ⟨_ | fault, faults⟩
  · rfl
  · rfl
  · exact absurd (h (some fault) (by rw [hfaults]; exact List.mem_cons_self)) (Option.some_ne_none fault)

end Socket

end Priestly
