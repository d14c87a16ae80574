/-
Module: Priestly.Proofs.OpeningRequest
Layer: Proofs
Purpose: What `_read_http_headers` and `server_handshake` do with a stream: the header block ends with the
  first empty line, nothing behind it is read, and every failure but one is a `ConnectionClosed`, a
  `ProtocolError` or a failed write.
Imports: Priestly.Proofs.SocketReads, Priestly.Transport.Handshake
Trusted boundary: none
Main exports: HeaderBlock, readHttpHeaders_block, readHttpHeaders_cases, serverHandshake_accepted,
  serverHandshake_unencodable
-/
import Priestly.Proofs.SocketReads
import Priestly.Transport.Handshake

namespace Priestly

open ByteCodec

/-! ### The header block -/

/-- A block that ends with an empty line, none of whose shorter beginnings does, and which is not too
large. -/
structure HeaderBlock (block : Bytes) : Prop where
  ends : crlfCrlf <:+ block
  first : ∀ shorter, shorter <+: block → crlfCrlf <:+ shorter → shorter = block
  size : block.length ≤ maxHeaderBytes

/-- Reading one byte. -/
theorem recvByte_ok {sock : Socket} {byte : UInt8} {more : Bytes} (label : String)
    (hrest : sock.rest = byte :: more) :
    ∃ sock', Socket.recvOrClosed label 1 sock = .ok [byte] sock' ∧ sock.Left sock' more := by
  have hne : sock.pieces ≠ [] := by
    intro hnil
    rw [Socket.rest, hnil] at hrest
    cases hrest
  have hone : ([byte] : Bytes).length = 1 := rfl
  obtain ⟨bytes', hbytes, hleft⟩ := Socket.advance_rest hone hrest
  have hgot : (Piece.read 1 sock.pieces).1 ≠ [] := by
    rw [ne_eq, Piece.read_eq_nil Nat.one_pos]
    exact hne
  have hread := Socket.recvOrClosed_piece label
    (Nat.le_trans (by decide) sock.memory.eight_le_largest : 1 ≤ sock.memory.largest) hne
  cases hfirst : (Piece.read 1 sock.pieces).1 with
  | nil => exact absurd hfirst hgot
  | cons first others =>
      rw [hfirst, List.cons_append, List.cons.injEq] at hbytes
      obtain ⟨rfl, hnil⟩ := hbytes
      obtain ⟨rfl, rfl⟩ := List.append_eq_nil_iff.mp hnil.symm
      rw [hfirst] at hread
      exact ⟨_, hread, hleft⟩

/-- One round of the loop over a byte. -/
theorem readHttpHeadersLoop_byte {sock : Socket} {byte : UInt8} {more buf : Bytes} (room : Nat)
    (hrest : sock.rest = byte :: more) (hmore : ¬ crlfCrlf <:+ buf) :
    ∃ sock', sock.Left sock' more ∧ readHttpHeadersLoop room buf sock =
      (match room with
        | 0 => (throw (TransportExn.protocolError "handshake header block too large") : SocketM Bytes)
        | room + 1 => readHttpHeadersLoop room (buf ++ [byte])) sock' := by
  obtain ⟨sock', hread, hleft⟩ := recvByte_ok "socket error during handshake" hrest
  refine ⟨sock', hleft, ?_⟩
  rw [readHttpHeadersLoop.eq_def, if_neg hmore, StateExcept.bind_ok hread]
  exact congrFun (if_neg (List.cons_ne_nil _ _)) sock'

/-- One round of the loop at the end of the stream. -/
theorem readHttpHeadersLoop_end {sock : Socket} {buf : Bytes} (room : Nat) (hrest : sock.rest = [])
    (hmore : ¬ crlfCrlf <:+ buf) :
    readHttpHeadersLoop room buf sock = .error (.connectionClosed none
      (sock.endReason "socket error during handshake" "stream ended during handshake")) sock := by
  rw [readHttpHeadersLoop.eq_def, if_neg hmore]
  exact Socket.recvOrClosed_end _ _ (Nat.le_trans (by decide) sock.memory.eight_le_largest)
    (Piece.flat_eq_nil.mp hrest) _

/-- The loop is over once the block ends with an empty line. -/
theorem readHttpHeadersLoop_done {sock : Socket} {buf : Bytes} (room : Nat) (hline : crlfCrlf <:+ buf) :
    readHttpHeadersLoop room buf sock = .ok buf sock := by
  rw [readHttpHeadersLoop.eq_def, if_pos hline]
  rfl

/-- The loop ends with the first empty line. -/
theorem readHttpHeadersLoop_block {sock : Socket} {rest : Bytes} (suffix buf : Bytes) (room : Nat)
    (hroom : suffix.length ≤ room) (hrest : sock.rest = suffix ++ rest) (hends : crlfCrlf <:+ buf ++ suffix)
    (hfirst : ∀ shorter, shorter <+: suffix → crlfCrlf <:+ buf ++ shorter → shorter = suffix) :
    ∃ sock', readHttpHeadersLoop room buf sock = .ok (buf ++ suffix) sock' ∧ sock.Left sock' rest := by
  induction suffix generalizing buf room sock with
  | nil =>
      rw [List.append_nil] at hends ⊢
      exact ⟨sock, readHttpHeadersLoop_done room hends, rfl, rfl, rfl, rfl, hrest⟩
  | cons byte suffix ih =>
      have hmore : ¬ crlfCrlf <:+ buf := by
        intro hbuf
        have := hfirst [] List.nil_prefix (by rw [List.append_nil]; exact hbuf)
        cases this
      obtain ⟨sock₁, hleft₁, hloop⟩ := readHttpHeadersLoop_byte room hrest hmore
      obtain ⟨room, rfl⟩ : ∃ less, room = less + 1 :=
        ⟨room - 1, by rw [List.length_cons] at hroom; omega⟩
      have hsplit : ∀ tail, buf ++ [byte] ++ tail = buf ++ byte :: tail := fun tail => by simp
      obtain ⟨sock₂, hread, hleft₂⟩ := ih (buf ++ [byte]) room (Nat.le_of_succ_le_succ hroom) hleft₁.rest
        (by rw [hsplit]; exact hends)
        (fun shorter hshorter hline => by
          rw [hsplit] at hline
          exact (List.cons.inj (hfirst (byte :: shorter) (by simpa using hshorter) hline)).2)
      rw [hsplit] at hread
      exact ⟨sock₂, hloop.trans hread, hleft₁.trans hleft₂⟩

/-- What the loop has read, if it has not raised: up to the first empty line. -/
def ReadsBlock (room : Nat) (buf : Bytes) (sock : Socket) : Prop :=
  ∃ suffix rest, sock.rest = suffix ++ rest ∧ suffix.length ≤ room ∧ crlfCrlf <:+ buf ++ suffix ∧
    ∀ shorter, shorter <+: suffix → crlfCrlf <:+ buf ++ shorter → shorter = suffix

/-- The two exceptions of `_read_http_headers`. -/
def IsReadError (exn : TransportExn) : Prop :=
  (∃ reason, exn = .connectionClosed none reason) ∨ ∃ text, exn = .protocolError text

/-- What the loop does with a stream. -/
theorem readHttpHeadersLoop_cases (room : Nat) (buf : Bytes) (sock : Socket) :
    ReadsBlock room buf sock ∨
      ∃ exn sock', readHttpHeadersLoop room buf sock = .error exn sock' ∧ IsReadError exn := by
  induction room generalizing buf sock with
  | zero =>
      by_cases hline : crlfCrlf <:+ buf
      · left
        refine ⟨[], sock.rest, rfl, Nat.zero_le _, by rwa [List.append_nil], ?_⟩
        intro shorter hshorter _
        exact List.prefix_nil.mp hshorter
      · right
        cases hrest : sock.rest with
        | nil => exact ⟨_, _, readHttpHeadersLoop_end 0 hrest hline, .inl ⟨_, rfl⟩⟩
        | cons byte more =>
            obtain ⟨sock₁, _, hloop⟩ := readHttpHeadersLoop_byte 0 hrest hline
            exact ⟨_, sock₁, hloop, .inr ⟨_, rfl⟩⟩
  | succ room ih =>
      by_cases hline : crlfCrlf <:+ buf
      · left
        refine ⟨[], sock.rest, rfl, Nat.zero_le _, by rwa [List.append_nil], ?_⟩
        intro shorter hshorter _
        exact List.prefix_nil.mp hshorter
      · cases hrest : sock.rest with
        | nil => exact .inr ⟨_, _, readHttpHeadersLoop_end (room + 1) hrest hline, .inl ⟨_, rfl⟩⟩
        | cons byte more =>
            obtain ⟨sock₁, hleft₁, hloop⟩ := readHttpHeadersLoop_byte (room + 1) hrest hline
            have hsplit : ∀ tail, buf ++ [byte] ++ tail = buf ++ byte :: tail := fun tail => by simp
            rcases ih (buf ++ [byte]) sock₁ with
              ⟨suffix, rest, hrest₁, hroom, hends, hfirst⟩ | ⟨exn, sock₂, hread, hexn⟩
            · left
              rw [hsplit] at hends
              refine ⟨byte :: suffix, rest, ?_, Nat.succ_le_succ hroom, hends, ?_⟩
              · rw [List.cons_append, ← hrest₁, hleft₁.rest, hrest]
              · intro shorter hshorter hshort
                cases shorter with
                | nil => exact absurd (by rwa [List.append_nil] at hshort) hline
                | cons first others =>
                    rw [List.cons_prefix_cons] at hshorter
                    obtain ⟨rfl, hothers⟩ := hshorter
                    rw [← hsplit] at hshort
                    rw [hfirst others hothers hshort]
            · exact .inr ⟨exn, sock₂, hloop.trans hread, hexn⟩

/-- The header block is read, and nothing behind it. -/
theorem readHttpHeaders_block {sock : Socket} {block rest : Bytes} (hblock : HeaderBlock block)
    (hrest : sock.rest = block ++ rest) :
    ∃ sock', readHttpHeaders sock = .ok (latin1Decode block) sock' ∧ sock.Left sock' rest := by
  obtain ⟨sock', hread, hleft⟩ :=
    readHttpHeadersLoop_block block [] maxHeaderBytes hblock.size hrest hblock.ends hblock.first
  exact ⟨sock', StateExcept.bind_ok hread, hleft⟩

/-- A stream starts with a header block, or `_read_http_headers` raises. -/
theorem readHttpHeaders_cases (sock : Socket) :
    (∃ block rest, HeaderBlock block ∧ sock.rest = block ++ rest) ∨
      ∃ exn sock', readHttpHeaders sock = .error exn sock' ∧ IsReadError exn := by
  rcases readHttpHeadersLoop_cases maxHeaderBytes [] sock with
    ⟨block, rest, hrest, hsize, hends, hfirst⟩ | ⟨exn, sock', hread, hexn⟩
  · exact .inl ⟨block, rest, ⟨hends, hfirst, hsize⟩, hrest⟩
  · exact .inr ⟨exn, sock', StateExcept.bind_error hread, hexn⟩

/-! ### The handshake -/

/-- The checks on a request fail with a `ProtocolError`. -/
theorem checkRequest_error {block : List Char} {exn : TransportExn}
    (h : checkRequest block = .error exn) : ∃ text, exn = .protocolError text := by
  rw [checkRequest] at h
  split at h
  split at h
  · cases h
    exact ⟨_, rfl⟩
  · split at h
    · cases h
      exact ⟨_, rfl⟩
    · split at h
      · cases h
        exact ⟨_, rfl⟩
      · cases h
        exact ⟨_, rfl⟩
      · cases h

/-- The key is part of an ASCII text, and so the token can be computed. -/
def AsciiKey (key : List Char) : Prop := ∀ c ∈ key, c.toNat < 128

/-- The accept token exists exactly for an ASCII key. -/
theorem acceptToken_cases (key : List Char) :
    (AsciiKey key ∧ ∃ token, acceptToken key = .ok token) ∨
      (¬ AsciiKey key ∧ acceptToken key =
        .error (.unicodeEncodeError (.ofList (key ++ guid.toList)))) := by
  have hguid : ∀ c ∈ guid.toList, c.toNat < 128 := forall_mem_of_all (by decide)
  by_cases hascii : AsciiKey key
  · have hall : ((key ++ guid.toList).all fun c => c.toNat < 128) = true := by
      rw [List.all_eq_true]
      intro c hc
      rw [decide_eq_true_eq]
      rcases List.mem_append.mp hc with hkey | hrest
      · exact hascii c hkey
      · exact hguid c hrest
    refine .inl ⟨hascii, ?_⟩
    rw [acceptToken, asciiEncode, if_pos hall]
    exact ⟨_, rfl⟩
  · have hall : ¬ ((key ++ guid.toList).all fun c => c.toNat < 128) = true := by
      rw [List.all_eq_true]
      intro hall
      refine hascii fun c hc => ?_
      exact of_decide_eq_true (hall c (List.mem_append_left _ hc))
    refine .inr ⟨hascii, ?_⟩
    rw [acceptToken, asciiEncode, if_neg hall]
    rfl

/-- `sendall` writes, or raises the `OSError` of a fault. -/
theorem sendall_cases (data : Bytes) (sock : Socket) :
    (∃ sock', Socket.sendall data sock = .ok () sock' ∧ sock'.memory = sock.memory ∧
      sock'.rest = sock.rest ∧ sock'.faults = sock.faults.tail) ∨
    ∃ fault sock', some fault ∈ sock.faults ∧ Socket.sendall data sock = .error (.osError fault.text) sock' := by
  rw [Socket.sendall, StateExcept.get_bind]
  rcases hfaults : sock.faults with _ | ⟨_ | fault, faults⟩
  · exact .inl ⟨_, rfl, rfl, rfl, rfl⟩
  · exact .inl ⟨_, rfl, rfl, rfl, rfl⟩
  · exact .inr ⟨fault, _, List.mem_cons_self, rfl⟩

variable {sock : Socket} {block rest : Bytes} {key : List Char} {headers : Headers}

/-- A request that does not pass the checks is refused with a `ProtocolError`. -/
theorem serverHandshake_unchecked {exn : TransportExn} (hblock : HeaderBlock block)
    (hrest : sock.rest = block ++ rest) (hcheck : checkRequest (latin1Decode block) = .error exn) :
    ∃ text sock', serverHandshake sock = .error (.protocolError text) sock' := by
  obtain ⟨sock', hread, _⟩ := readHttpHeaders_block hblock hrest
  obtain ⟨text, rfl⟩ := checkRequest_error hcheck
  refine ⟨text, sock', ?_⟩
  rw [serverHandshake, StateExcept.bind_ok hread, hcheck]
  rfl

/-- A request whose key is not ASCII raises a `UnicodeEncodeError`. -/
theorem serverHandshake_unencodable (hblock : HeaderBlock block) (hrest : sock.rest = block ++ rest)
    (hcheck : checkRequest (latin1Decode block) = .ok (key, headers)) (hkey : ¬ AsciiKey key) :
    ∃ text sock', serverHandshake sock = .error (.unicodeEncodeError text) sock' := by
  obtain ⟨sock', hread, _⟩ := readHttpHeaders_block hblock hrest
  rcases acceptToken_cases key with ⟨hascii, _⟩ | ⟨_, htoken⟩
  · exact absurd hascii hkey
  · refine ⟨.ofList (key ++ guid.toList), sock', ?_⟩
    rw [serverHandshake, StateExcept.bind_ok hread, hcheck]
    simp only [htoken]
    rfl

/-- A request with an ASCII key is answered, unless the write fails. -/
theorem serverHandshake_accepted (hblock : HeaderBlock block) (hrest : sock.rest = block ++ rest)
    (hcheck : checkRequest (latin1Decode block) = .ok (key, headers)) (hkey : AsciiKey key) :
    (∃ sock', serverHandshake sock = .ok headers sock' ∧ sock'.memory = sock.memory ∧ sock'.rest = rest ∧
      sock'.faults = sock.faults.tail) ∨
    ∃ fault sock', some fault ∈ sock.faults ∧
      serverHandshake sock = .error (.osError fault.text) sock' := by
  obtain ⟨sock₁, hread, hleft⟩ := readHttpHeaders_block hblock hrest
  rcases acceptToken_cases key with ⟨_, token, htoken⟩ | ⟨hunencodable, _⟩
  swap
  · exact absurd hkey hunencodable
  rw [serverHandshake, StateExcept.bind_ok hread, hcheck]
  simp only [htoken]
  rcases sendall_cases ((handshakeResponse token).toList.map fun c => UInt8.ofNat c.toNat) sock₁ with
    ⟨sock₂, hwrite, hmemory, hrest₂, hfaults⟩ | ⟨fault, sock₂, hfault, hwrite⟩
  · refine .inl ⟨sock₂, StateExcept.bind_ok hwrite, hmemory.trans hleft.memory, hrest₂.trans hleft.rest, ?_⟩
    rw [hfaults, hleft.faults]
  · rw [hleft.faults] at hfault
    exact .inr ⟨fault, sock₂, hfault, StateExcept.bind_error hwrite⟩

end Priestly
