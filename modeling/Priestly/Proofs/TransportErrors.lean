/-
Module: Priestly.Proofs.TransportErrors
Layer: Proofs
Purpose: Which byte streams of a peer make the transport layer raise only what the worker of a connection
  handles: the key of the opening request is ASCII, no frame that is reached announces more than the
  process can hold, and every text message that is completed decodes.
Imports: Priestly.Proofs.MessageGrammar, Priestly.Proofs.OpeningRequest
Trusted boundary: none
Main exports: Handled, ErrorContract, Position, SafeStream, errorContract_iff
-/
import Priestly.Proofs.MessageGrammar
import Priestly.Proofs.OpeningRequest

namespace Priestly

open ByteCodec

/-! ### The contract -/

/-- The exceptions that `_serve_connection` handles. An `OSError` may only stem from a write that
fails. -/
def Handled (sock : Socket) : TransportExn → Prop
  | .connectionClosed _ _ | .protocolError _ => True
  | .osError text => ∃ fault, some fault ∈ sock.faults ∧ fault.text = text
  | .structError _ | .overflowError _ | .memoryError | .unicodeDecodeError _ | .unicodeEncodeError _ => False

/-- Whatever pieces the stream comes in and whichever writes fail, the handshake and so many calls of
`recv` return, or raise what the worker handles. -/
def ErrorContract (memory : Memory) (bytes : Bytes) : Prop :=
  ∀ (ep ep' : WsEndpoint) (calls : Nat) (exn : TransportExn),
    ep.ws = { isClient := false, closed := false } → ep.sock.memory = memory → ep.sock.rest = bytes →
    serveCalls calls ep = .error exn ep' → Handled ep.sock exn

/-- Fewer faults leave fewer exceptions. -/
theorem Handled.mono {sock sock' : Socket} {exn : TransportExn} (hfaults : sock'.faults ⊆ sock.faults)
    (h : Handled sock' exn) : Handled sock exn := by
  cases exn with
  | osError text =>
      obtain ⟨fault, hfault, htext⟩ := h
      exact ⟨fault, hfaults hfault, htext⟩
  | connectionClosed code reason => exact h
  | protocolError text => exact h
  | structError text => exact h
  | overflowError text => exact h
  | memoryError => exact h
  | unicodeDecodeError object => exact h
  | unicodeEncodeError object => exact h

/-- A refused read is not handled. -/
theorem not_handled_refusal (sock : Socket) (n : Nat) : ¬ Handled sock (Memory.refusal n) := by
  rcases Memory.refusal_cases n with hmemory | ⟨_, hoverflow⟩
  · rw [hmemory]
    exact fun h => h
  · rw [hoverflow]
    exact fun h => h

/-! ### The condition -/

/-- The places of the stream behind the request at which a frame is expected, with the message that is
under assembly there. -/
inductive Position (memory : Memory) (rest : Bytes) : Option Gathered → Bytes → Prop where
  | start : Position memory rest none rest
  | onward {pending pending' : Option Gathered} {frame : WireFrame} {more : Bytes}
      (earlier : Position memory rest pending (frame.bytes ++ more))
      (served : frame.payload.length ≤ memory.largest) (onward : Onward pending frame pending') :
      Position memory rest pending' more
  | message {pending : Option Gathered} {frame : WireFrame} {more : Bytes} {message : Gathered}
      (earlier : Position memory rest pending (frame.bytes ++ more))
      (served : frame.payload.length ≤ memory.largest)
      (complete : frame.content.effect pending = .complete message)
      (decodes : message.opcode = .text → utf8Decode message.data ≠ none) :
      Position memory rest none more

/-- A frame that starts here announces no more than the process can hold, and completes no text that cannot
be decoded. -/
structure SafeAt (memory : Memory) (pending : Option Gathered) (bytes : Bytes) : Prop where
  length : ∀ (header : WireHeader) (more : Bytes), bytes = header.bytes ++ more →
    header.length ≤ memory.largest
  decodes : ∀ (frame : WireFrame) (more : Bytes) (message : Gathered), bytes = frame.bytes ++ more →
    frame.content.effect pending = .complete message → message.opcode = .text →
    utf8Decode message.data ≠ none

/-- When the stream starts with a request that passes the checks, its key is ASCII, and it is safe at
every position behind the request. -/
def SafeStream (memory : Memory) (bytes : Bytes) : Prop :=
  ∀ (block rest : Bytes) (key : List Char) (headers : Headers), bytes = block ++ rest →
    HeaderBlock block → checkRequest (latin1Decode block) = .ok (key, headers) →
    AsciiKey key ∧ ∀ pending more, Position memory rest pending more → SafeAt memory pending more

/-! ### One frame -/

namespace WsEndpoint

variable {ep : WsEndpoint} {pending : Option Gathered} {rounds : Nat} {chunks : List Bytes}
  {messageOpcode : Option Opcode}

/-- The machine on a single frame leaves none. -/
theorem assemble_single (pending : Option Gathered) (frame : WireFrame) :
    (assemble pending [frame]).2 = [] := by
  rcases onward_cases pending frame with
    ⟨between, honward⟩ | ⟨_, heffect⟩ | ⟨_, _, heffect⟩ | ⟨message, _, _, heffect⟩
  · rw [honward.assemble]
    rfl
  · rw [assemble, heffect]
  · rw [assemble, heffect]
  · rw [assemble, heffect]

/-- A write of the call fails. -/
def WriteFails (ep : WsEndpoint) (result : EStateM.Result TransportExn WsEndpoint WsMessage) : Prop :=
  ∃ fault ep', some fault ∈ ep.sock.faults ∧ result = .error (.osError fault.text) ep'

/-- The loop on a frame, with anything behind it. -/
theorem recvLoop_frame {frame : WireFrame} {more : Bytes} (hopen : ep.ws.closed = false)
    (hrest : ep.sock.rest = frame.bytes ++ more)
    (hserved : frame.payload.length ≤ ep.sock.memory.largest) (hrounds : ep.sock.rest.length < rounds)
    (hholds : Holds pending chunks messageOpcode) :
    WriteFails ep (recvLoop rounds chunks messageOpcode ep) ∨
      ∃ pings ep', Advanced ep ep' pings more ∧
        Ends (assemble pending [frame]).1 ep' (recvLoop rounds chunks messageOpcode ep) := by
  have hstream : WireFrame.stream [frame] = frame.bytes := by
    rw [WireFrame.stream, List.flatMap_singleton]
  have hserved' : ∀ other ∈ [frame], other.payload.length ≤ ep.sock.memory.largest := by
    intro other hother
    rw [List.mem_singleton.mp hother]
    exact hserved
  rcases recvLoop_assemble [frame] hopen (hstream.symm ▸ hrest) hserved' hrounds hholds with
    ⟨_, hfault, hraised, _, _, _, _⟩ | ⟨_, ep', _, hadvanced, hends⟩
  · exact .inl ⟨_, _, hfault, hraised⟩
  · rw [assemble_single] at hadvanced
    exact .inr ⟨_, ep', hadvanced, hends⟩

/-- A message that is completed is returned, or its text does not decode. -/
theorem assembled_result (message : Gathered) (ep : WsEndpoint) :
    (message.opcode = .text ∧ utf8Decode message.data = none ∧
      assembled message.opcode message.data ep = .error (.unicodeDecodeError message.data) ep) ∨
    ((message.opcode = .text → utf8Decode message.data ≠ none) ∧
      ∃ returned, assembled message.opcode message.data ep = .ok returned ep) := by
  rw [assembled]
  by_cases htext : message.opcode = .text
  · rw [if_pos htext]
    cases hdecode : utf8Decode message.data with
    | none => exact .inl ⟨htext, rfl, rfl⟩
    | some text => exact .inr ⟨fun _ => by simp, _, rfl⟩
  · rw [if_neg htext]
    exact .inr ⟨fun h => absurd h htext, _, rfl⟩

/-! ### A safe stream keeps the contract -/

variable {rest : Bytes}

/-- How a call ends on a safe stream: it returns at a position where the next message may start, or it
raises what the worker handles. -/
def CallKept (rest : Bytes) (ep : WsEndpoint)
    (result : EStateM.Result TransportExn WsEndpoint WsMessage) : Prop :=
  (∃ message ep', result = .ok message ep' ∧ ep'.ws = ep.ws ∧ ep'.sock.memory = ep.sock.memory ∧
    ep'.sock.faults ⊆ ep.sock.faults ∧ Position ep.sock.memory rest none ep'.sock.rest) ∨
  ∃ exn ep', result = .error exn ep' ∧ Handled ep.sock exn

/-- Behind a frame the call ends as the loop does that goes on there. -/
theorem CallKept.earlier {ep' : WsEndpoint} {pings : List Bytes} {more : Bytes}
    {result : EStateM.Result TransportExn WsEndpoint WsMessage} (hadvanced : Advanced ep ep' pings more)
    (h : CallKept rest ep' result) : CallKept rest ep result := by
  have hfewer : ep'.sock.faults ⊆ ep.sock.faults := by
    rw [hadvanced.faults]
    exact List.drop_subset _ _
  rcases h with ⟨message, ep'', hok, hws, hmemory, hfaults, hposition⟩ | ⟨exn, ep'', hraised, hhandled⟩
  · left
    refine ⟨message, ep'', hok, hws.trans hadvanced.ws, hmemory.trans hadvanced.memory,
      List.Subset.trans hfaults hfewer, ?_⟩
    rw [← hadvanced.memory]
    exact hposition
  · exact .inr ⟨exn, ep'', hraised, hhandled.mono hfewer⟩

/-- The loop on a safe stream. The induction is on the bytes that are left. -/
theorem recvLoop_kept (size : Nat) (hsize : ep.sock.rest.length ≤ size) (hopen : ep.ws.closed = false)
    (hposition : Position ep.sock.memory rest pending ep.sock.rest)
    (hsafe : ∀ pending more, Position ep.sock.memory rest pending more → SafeAt ep.sock.memory pending more)
    (hrounds : ep.sock.rest.length < rounds) (hholds : Holds pending chunks messageOpcode) :
    CallKept rest ep (recvLoop rounds chunks messageOpcode ep) := by
  induction size generalizing ep pending rounds chunks messageOpcode with
  | zero =>
      have hend : ep.sock.rest = [] := List.length_eq_zero_iff.mp (Nat.le_zero.mp hsize)
      obtain ⟨reason, ep', hraised, _⟩ :=
        recvLoop_end chunks messageOpcode hend (Nat.lt_of_le_of_lt (Nat.zero_le _) hrounds)
      exact .inr ⟨_, ep', hraised, trivial⟩
  | succ size ih =>
      obtain ⟨rounds, rfl⟩ : ∃ fewer, rounds = fewer + 1 := ⟨rounds - 1, by omega⟩
      have hraise : ∀ {exn : TransportExn} {sock' : Socket}, readFrame ep.sock = .error exn sock' →
          recvLoop (rounds + 1) chunks messageOpcode ep = .error exn { ep with sock := sock' } :=
        fun hread => StateExcept.bind_error (onSocket_error hread)
      cases hread : readFrame ep.sock with
      | error exn sock' =>
          have hcases := readFrame_cases ep.sock
          rw [hread] at hcases
          refine .inr ⟨exn, _, hraise hread, ?_⟩
          cases hcases with
          | oversized hstream hlarge _ =>
              exact absurd ((hsafe _ _ hposition).length _ _ hstream) (Nat.not_le.mpr hlarge)
          | ended _ => exact trivial
          | malformed _ => exact trivial
      | ok content sock' =>
          have hcases := readFrame_cases ep.sock
          rw [hread] at hcases
          cases hcases with
          | @frame frame more _ hstream hserved _ =>
              rcases recvLoop_frame hopen hstream hserved hrounds hholds with
                ⟨fault, ep', hfault, hraised⟩ | ⟨pings, ep', hadvanced, hends⟩
              · exact .inr ⟨_, ep', hraised, fault, hfault, rfl⟩
              rw [hstream] at hposition
              rcases onward_cases pending frame with
                ⟨between, honward⟩ | ⟨_, heffect⟩ | ⟨_, _, heffect⟩ | ⟨message, _, _, heffect⟩
              · rw [honward.assemble] at hends
                obtain ⟨rounds', chunks', messageOpcode', hrounds', hholds', hagain⟩ := hends
                have hfewer : ep'.sock.rest.length ≤ size := by
                  have htwo := two_le_length_bytes frame
                  rw [hstream, List.length_append] at hsize
                  rw [hadvanced.rest]
                  omega
                have hnext := hposition.onward hserved honward
                rw [hagain]
                refine CallKept.earlier hadvanced (ih hfewer (hadvanced.ws ▸ hopen) ?_ ?_ hrounds' hholds')
                · rw [hadvanced.memory, hadvanced.rest]
                  exact hnext
                · rw [hadvanced.memory]
                  exact hsafe
              · rw [assemble, heffect] at hends
                exact .inr ⟨_, _, hends, trivial⟩
              · rw [assemble, heffect] at hends
                exact .inr ⟨_, _, hends, trivial⟩
              · have hsingle : (assemble pending [frame]).1 = .message message := by
                  rw [assemble, heffect]
                rw [hsingle] at hends
                have hdecodes := (hsafe _ _ hposition).decodes frame more message rfl heffect
                rcases assembled_result message ep' with
                  ⟨htext, hnone, _⟩ | ⟨_, returned, hreturned⟩
                · exact absurd hnone (hdecodes htext)
                · refine .inl ⟨returned, ep', hends.trans hreturned, hadvanced.ws, hadvanced.memory, ?_, ?_⟩
                  · rw [hadvanced.faults]
                    exact List.drop_subset _ _
                  · rw [hadvanced.rest]
                    exact hposition.message hserved heffect hdecodes

/-- A call on an open `WebSocket` enters the loop. -/
theorem recv_open (hopen : ep.ws.closed = false) :
    recv ep = recvLoop (ep.sock.rest.length + 1) [] none ep := by
  rw [recv, StateExcept.get_bind, if_neg (by simp [hopen])]

/-- So many calls on a safe stream. -/
theorem recvMany_kept (calls : Nat) {exn : TransportExn} {ep' : WsEndpoint} (hopen : ep.ws.closed = false)
    (hposition : Position ep.sock.memory rest none ep.sock.rest)
    (hsafe : ∀ pending more, Position ep.sock.memory rest pending more → SafeAt ep.sock.memory pending more)
    (hraised : recvMany calls ep = .error exn ep') : Handled ep.sock exn := by
  induction calls generalizing ep with
  | zero => cases hraised
  | succ calls ih =>
      have hkept := recvLoop_kept ep.sock.rest.length (le_refl _) hopen hposition hsafe
        (Nat.lt_succ_self _) Holds.none
      rw [← recv_open hopen] at hkept
      rw [recvMany] at hraised
      rcases StateExcept.bind_eq_error hraised with hfirst | ⟨message, ep₁, hfirst, hlater⟩
      · rw [hfirst] at hkept
        rcases hkept with ⟨_, _, hok, _⟩ | ⟨_, _, herror, hhandled⟩
        · cases hok
        · cases herror
          exact hhandled
      · rw [hfirst] at hkept
        rcases hkept with ⟨_, _, hok, hws, hmemory, hfaults, hnext⟩ | ⟨_, _, herror, _⟩
        · cases hok
          rcases StateExcept.bind_eq_error hlater with hsecond | ⟨_, _, _, hreturn⟩
          · rw [← hmemory] at hnext hsafe
            exact Handled.mono hfaults (ih (hws ▸ hopen) hnext hsafe hsecond)
          · cases hreturn
        · cases herror

end WsEndpoint

/-- A safe stream keeps the contract. -/
theorem errorContract_of_safe {memory : Memory} {bytes : Bytes} (hsafe : SafeStream memory bytes) :
    ErrorContract memory bytes := by
  rintro ep ep' calls exn hws rfl rfl hraised
  rcases readHttpHeaders_cases ep.sock with ⟨block, rest, hblock, hrest⟩ | ⟨other, sock', hread, hother⟩
  · cases hcheck : checkRequest (latin1Decode block) with
    | error other =>
        obtain ⟨text, sock', hhandshake⟩ := serverHandshake_unchecked hblock hrest hcheck
        rw [serveCalls, StateExcept.bind_error (WsEndpoint.onSocket_error hhandshake)] at hraised
        cases hraised
        exact trivial
    | ok request =>
        obtain ⟨key, headers⟩ := request
        obtain ⟨hkey, hpositions⟩ := hsafe block rest key headers hrest hblock hcheck
        rcases serverHandshake_accepted hblock hrest hcheck hkey with
          ⟨sock₁, hhandshake, hmemory, hrest₁, hfaults⟩ | ⟨fault, sock₁, hfault, hhandshake⟩
        · rw [serveCalls, StateExcept.bind_ok (WsEndpoint.onSocket_ok hhandshake)] at hraised
          rw [← hmemory] at hpositions
          have hstart : Position sock₁.memory rest none sock₁.rest := by
            rw [hrest₁]
            exact .start
          have hfewer : sock₁.faults ⊆ ep.sock.faults := by
            rw [hfaults]
            exact List.drop_one ▸ List.drop_subset 1 _
          refine Handled.mono hfewer (WsEndpoint.recvMany_kept calls ?_ hstart hpositions hraised)
          rw [hws]
        · rw [serveCalls, StateExcept.bind_error (WsEndpoint.onSocket_error hhandshake)] at hraised
          cases hraised
          exact ⟨fault, hfault, rfl⟩
  · have hhandshake : serverHandshake ep.sock = .error other sock' := StateExcept.bind_error hread
    rw [serveCalls, StateExcept.bind_error (WsEndpoint.onSocket_error hhandshake)] at hraised
    cases hraised
    rcases hother with ⟨reason, rfl⟩ | ⟨text, rfl⟩
    · exact trivial
    · exact trivial

/-! ### An unsafe stream breaks the contract -/

namespace WsEndpoint

/-- The calls behind a first state get to the loop at a later one: what follows there decides how so many
calls end. -/
def Resumes (ep₀ : WsEndpoint) (earlier : Nat) (ep : WsEndpoint) (loop : WsM WsMessage) : Prop :=
  ∀ calls, (do let _ ← recvMany (earlier + 1 + calls); return) ep₀ =
    (do let _ ← loop; let _ ← recvMany calls; return : WsM Unit) ep

/-- Every position is reached by calls on a socket whose writes do not fail. -/
theorem resumes_position {ep₀ : WsEndpoint} {rest more : Bytes} {pending : Option Gathered}
    (hopen : ep₀.ws.closed = false) (hwritable : ep₀.sock.faults = []) (hrest : ep₀.sock.rest = rest)
    (hposition : Position ep₀.sock.memory rest pending more) :
    ∃ earlier rounds chunks messageOpcode ep, ep.ws = ep₀.ws ∧ ep.sock.memory = ep₀.sock.memory ∧
      ep.sock.faults = [] ∧ ep.sock.rest = more ∧ more.length < rounds ∧
      Holds pending chunks messageOpcode ∧
      Resumes ep₀ earlier ep (recvLoop rounds chunks messageOpcode) := by
  induction hposition with
  | start =>
      refine ⟨0, rest.length + 1, [], none, ep₀, rfl, rfl, hwritable, hrest, Nat.lt_succ_self _, Holds.none, ?_⟩
      intro calls
      have hrecv : recv ep₀ = recvLoop (rest.length + 1) [] none ep₀ := hrest ▸ recv_open hopen
      rw [Nat.zero_add, Nat.add_comm 1 calls, recvMany]
      simp only [bind_assoc, pure_bind]
      exact StateExcept.bind_congr hrecv
  | onward _ hserved honward ih =>
      obtain ⟨earlier, rounds, chunks, messageOpcode, ep, hws, hmemory, hfaults, hmore, hrounds, hholds,
        hresumes⟩ := ih
      rw [← hmore] at hrounds
      rw [← hmemory] at hserved
      rcases recvLoop_frame (hws ▸ hopen) hmore hserved hrounds hholds with
        ⟨_, _, hfault, _⟩ | ⟨pings, ep', hadvanced, hends⟩
      · rw [hfaults] at hfault
        cases hfault
      · rw [honward.assemble] at hends
        obtain ⟨rounds', chunks', messageOpcode', hrounds', hholds', hagain⟩ := hends
        rw [hadvanced.rest] at hrounds'
        refine ⟨earlier, rounds', chunks', messageOpcode', ep', hadvanced.ws.trans hws,
          hadvanced.memory.trans hmemory, ?_, hadvanced.rest, hrounds', hholds', ?_⟩
        · rw [hadvanced.faults, hfaults, List.drop_nil]
        · intro calls
          exact (hresumes calls).trans (StateExcept.bind_congr hagain)
  | @message pending frame more message _ hserved hcomplete hdecodes ih =>
      obtain ⟨earlier, rounds, chunks, messageOpcode, ep, hws, hmemory, hfaults, hmore, hrounds, hholds,
        hresumes⟩ := ih
      rw [← hmore] at hrounds
      rw [← hmemory] at hserved
      rcases recvLoop_frame (hws ▸ hopen) hmore hserved hrounds hholds with
        ⟨_, _, hfault, _⟩ | ⟨pings, ep', hadvanced, hends⟩
      · rw [hfaults] at hfault
        cases hfault
      · have hsingle : (assemble pending [frame]).1 = .message message := by
          rw [assemble, hcomplete]
        rw [hsingle] at hends
        rcases assembled_result message ep' with ⟨htext, hnone, _⟩ | ⟨_, returned, hreturned⟩
        · exact absurd hnone (hdecodes htext)
        have hopen' : ep'.ws.closed = false := hadvanced.ws ▸ hws ▸ hopen
        have hrecv : recv ep' = recvLoop (more.length + 1) [] none ep' := by
          rw [recv_open hopen', hadvanced.rest]
        refine ⟨earlier + 1, more.length + 1, [], none, ep', hadvanced.ws.trans hws,
          hadvanced.memory.trans hmemory, ?_, hadvanced.rest, Nat.lt_succ_self _, Holds.none, ?_⟩
        · rw [hadvanced.faults, hfaults, List.drop_nil]
        · intro calls
          have hnext := hresumes (calls + 1)
          rw [StateExcept.bind_ok (hends.trans hreturned), recvMany] at hnext
          rw [Nat.add_right_comm earlier 1 1, Nat.add_assoc (earlier + 1) 1 calls, Nat.add_comm 1 calls, hnext]
          simp only [bind_assoc, pure_bind]
          exact StateExcept.bind_congr hrecv

/-- An exception of the loop at a position is an exception of the calls. -/
theorem raises_at {ep₀ : WsEndpoint} {rest more : Bytes} {pending : Option Gathered}
    {exn : TransportExn}
    (hopen : ep₀.ws.closed = false) (hwritable : ep₀.sock.faults = []) (hrest : ep₀.sock.rest = rest)
    (hposition : Position ep₀.sock.memory rest pending more)
    (hraised : ∀ (ep : WsEndpoint) (rounds : Nat) (chunks : List Bytes) (messageOpcode : Option Opcode),
      ep.ws = ep₀.ws → ep.sock.memory = ep₀.sock.memory → ep.sock.faults = [] → ep.sock.rest = more →
      more.length < rounds → Holds pending chunks messageOpcode →
      ∃ ep', recvLoop rounds chunks messageOpcode ep = .error exn ep') :
    ∃ calls ep', recvMany calls ep₀ = .error exn ep' := by
  obtain ⟨earlier, rounds, chunks, messageOpcode, ep, hws, hmemory, hfaults, hmore, hrounds, hholds, hresumes⟩ :=
    resumes_position hopen hwritable hrest hposition
  obtain ⟨ep', hloop⟩ := hraised ep rounds chunks messageOpcode hws hmemory hfaults hmore hrounds hholds
  have hcalls := hresumes 0
  rw [StateExcept.bind_error hloop] at hcalls
  rcases StateExcept.bind_eq_error hcalls with hmany | ⟨_, _, _, hreturn⟩
  · exact ⟨_, _, hmany⟩
  · cases hreturn

end WsEndpoint

/-- A server whose unread stream is the bytes, one to a piece; no write fails. -/
def streamEndpoint (memory : Memory) (bytes : Bytes) : WsEndpoint :=
  let sample := bytesEndpoint bytes
  { sample with sock := { sample.sock with memory := memory } }

theorem rest_streamEndpoint (memory : Memory) (bytes : Bytes) :
    (streamEndpoint memory bytes).sock.rest = bytes := by
  rw [streamEndpoint, bytesEndpoint, Socket.rest, Piece.flat, List.flatMap_map]
  exact List.flatMap_singleton' _

/-- A stream that keeps the contract is safe. -/
theorem safe_of_errorContract {memory : Memory} {bytes : Bytes} (hcontract : ErrorContract memory bytes) :
    SafeStream memory bytes := by
  intro block rest key headers hbytes hblock hcheck
  have hrest : (streamEndpoint memory bytes).sock.rest = block ++ rest := by
    rw [rest_streamEndpoint, hbytes]
  have hkept := fun calls exn ep' =>
    hcontract (streamEndpoint memory bytes) ep' calls exn rfl rfl (rest_streamEndpoint memory bytes)
  have hkey : AsciiKey key := by
    by_contra hkey
    obtain ⟨text, sock', hhandshake⟩ := serverHandshake_unencodable hblock hrest hcheck hkey
    exact hkept 0 _ _ (StateExcept.bind_error (WsEndpoint.onSocket_error hhandshake))
  refine ⟨hkey, fun pending more hposition => ?_⟩
  rcases serverHandshake_accepted hblock hrest hcheck hkey with
    ⟨sock₁, hhandshake, hmemory, hrest₁, hfaults⟩ | ⟨fault, _, hfault, _⟩
  swap
  · cases hfault
  -- An exception of the loop at the position that the worker does not handle contradicts the contract.
  have hreached : ∀ exn, ¬ Handled (streamEndpoint memory bytes).sock exn →
      ¬ ∀ (ep : WsEndpoint) (rounds : Nat) (chunks : List Bytes) (messageOpcode : Option Opcode),
        ep.ws.closed = false → ep.sock.memory = memory → ep.sock.faults = [] → ep.sock.rest = more →
        more.length < rounds → WsEndpoint.Holds pending chunks messageOpcode →
        ∃ ep', WsEndpoint.recvLoop rounds chunks messageOpcode ep = .error exn ep' := by
    intro exn hunhandled hraised
    have hposition₁ : Position sock₁.memory rest pending more := hmemory ▸ hposition
    have hopen₁ : { streamEndpoint memory bytes with sock := sock₁ }.ws.closed = false := rfl
    obtain ⟨calls, ep', hmany⟩ := WsEndpoint.raises_at
      hopen₁ hfaults hrest₁ hposition₁
      (fun ep rounds chunks messageOpcode hws hmemory₁ =>
        hraised ep rounds chunks messageOpcode (hws ▸ rfl) (hmemory₁.trans hmemory))
    refine hunhandled (hkept calls exn ep' ?_)
    rw [serveCalls, StateExcept.bind_ok (WsEndpoint.onSocket_ok hhandshake)]
    exact hmany
  have hlength : ∀ (header : WireHeader) (behind : Bytes), more = header.bytes ++ behind →
      header.length ≤ memory.largest := by
    intro header behind hmore
    by_contra hlarge
    refine hreached (Memory.refusal header.length) (not_handled_refusal _ _) ?_
    rintro ep rounds chunks messageOpcode _ rfl _ hleft hrounds _
    obtain ⟨rounds, rfl⟩ : ∃ fewer, rounds = fewer + 1 := ⟨rounds - 1, by omega⟩
    obtain ⟨sock', hframe⟩ := readFrame_oversized (hleft.trans hmore) (Nat.lt_of_not_le hlarge)
    exact ⟨_, StateExcept.bind_error (WsEndpoint.onSocket_error hframe)⟩
  refine ⟨hlength, ?_⟩
  intro frame behind message hmore hcomplete htext hnone
  refine hreached (.unicodeDecodeError message.data) (fun h => h) ?_
  rintro ep rounds chunks messageOpcode hopen rfl hwritable hleft hrounds hholds
  have hserved : frame.payload.length ≤ ep.sock.memory.largest := by
    rw [frame.complete]
    exact hlength frame.header (frame.body ++ behind) (by rw [hmore, WireFrame.bytes, List.append_assoc])
  rcases WsEndpoint.recvLoop_frame hopen (hleft.trans hmore) hserved (hleft ▸ hrounds) hholds with
    ⟨_, _, hfault, _⟩ | ⟨pings, ep', _, hends⟩
  · rw [hwritable] at hfault
    cases hfault
  · have hsingle : (assemble pending [frame]).1 = .message message := by
      rw [assemble, hcomplete]
    rw [hsingle] at hends
    rcases WsEndpoint.assembled_result message ep' with ⟨_, _, hraised⟩ | ⟨hdecodes, _⟩
    · exact ⟨ep', hends.trans hraised⟩
    · exact absurd hnone (hdecodes htext)

/-- A byte stream keeps the error contract of the transport layer, however it is cut into pieces, exactly
when it is safe: in a request that passes the checks the key is ASCII, and behind it no header of a frame
that is read announces more than the process can hold and every text message decodes. -/
theorem errorContract_iff (memory : Memory) (bytes : Bytes) :
    ErrorContract memory bytes ↔ SafeStream memory bytes :=
  ⟨safe_of_errorContract, errorContract_of_safe⟩

/-- The exception that ends a run. -/
def raisedBy : EStateM.Result TransportExn WsEndpoint (List WsMessage) → Option TransportExn
  | .ok _ _ => none
  | .error exn _ => some exn

/-- A run over the stream that ends with an exception the worker does not handle. -/
theorem not_errorContract {memory : Memory} {bytes : Bytes} (calls : Nat) (exn : TransportExn)
    (hraised : raisedBy (serveCalls calls (streamEndpoint memory bytes)) = some exn)
    (hunhandled : ¬ Handled (streamEndpoint memory bytes).sock exn) : ¬ ErrorContract memory bytes := by
  intro hcontract
  cases hrun : serveCalls calls (streamEndpoint memory bytes) with
  | ok messages ep' =>
      rw [hrun] at hraised
      cases hraised
  | error other ep' =>
      rw [hrun] at hraised
      cases hraised
      exact hunhandled (hcontract _ ep' calls exn rfl rfl (rest_streamEndpoint memory bytes) hrun)

/-- An opening request with a key. -/
def openingRequest (key : Bytes) : Bytes :=
  utf8Encode "GET / HTTP/1.1\r\nUpgrade: websocket\r\nSec-WebSocket-Key: " ++ key ++ crlfCrlf

/-- Four streams that make another exception reach the worker: the key `é` of a request, a text frame with a
byte that is no UTF-8, and binary frames that announce more than the process can hold, and more than any. -/
theorem unhandled_exceptions_escape :
    ¬ ErrorContract .gibibyte (openingRequest [0xE9]) ∧
      ¬ ErrorContract .gibibyte (openingRequest [97] ++ [0x81, 1, 200]) ∧
      ¬ ErrorContract .gibibyte (openingRequest [97] ++ [0x82, 127, 0, 0, 0, 0, 128, 0, 0, 0]) ∧
      ¬ ErrorContract .gibibyte (openingRequest [97] ++ 0x82 :: 127 :: List.replicate 8 255) := by
  refine ⟨not_errorContract 0 (.unicodeEncodeError "é258EAFA5-E914-47DA-95CA-C5AB0DC85B11") ?_ ?_,
    not_errorContract 1 (.unicodeDecodeError [200]) ?_ ?_,
    not_errorContract 1 .memoryError ?_ ?_,
    not_errorContract 1 (.overflowError "Python int too large to convert to C ssize_t") ?_ ?_⟩
  · decide +kernel
  · exact fun h => h
  · decide +kernel
  · exact fun h => h
  · decide +kernel
  · exact fun h => h
  · decide +kernel
  · exact fun h => h

end Priestly
