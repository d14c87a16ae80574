/-
Module: Priestly.Proofs.Lifecycle
Layer: Proofs
Purpose: The life of a `WebSocket` over every sequence of calls. A closed `WebSocket` is left as it is by
  every call; and the socket is given back by every `close` that returns, unless `recv` has closed the
  `WebSocket` without it.
Imports: Priestly.Proofs.CallWrites, Priestly.Proofs.FrameGrammar
Trusted boundary: none
Main exports: closed_of_readsClose, readsClose_of_call, Lifecycle, Orderly, lifecycle_iff
-/
import Priestly.Proofs.CallWrites
import Priestly.Proofs.FrameGrammar

namespace Priestly

open ByteCodec

namespace WsEndpoint

variable {ep : WsEndpoint}

/-! ### A Close frame of the peer -/

/-- The first item of a list that fails a test. -/
theorem exists_first_not {α : Type} {p : α → Prop} [DecidablePred p] {items : List α}
    (h : ¬ ∀ item ∈ items, p item) :
    ∃ before item after, items = before ++ item :: after ∧ (∀ other ∈ before, p other) ∧ ¬ p item := by
  induction items with
  | nil => exact absurd (by simp) h
  | cons first items ih =>
      by_cases hfirst : p first
      · have hrest : ¬ ∀ item ∈ items, p item := by
          intro hall
          apply h
          intro item hitem
          rcases List.mem_cons.mp hitem with rfl | hitem
          · exact hfirst
          · exact hall item hitem
        obtain ⟨before, item, after, rfl, hbefore, hitem⟩ := ih hrest
        refine ⟨first :: before, item, after, rfl, ?_, hitem⟩
        intro other hother
        rcases List.mem_cons.mp hother with rfl | hother
        · exact hfirst
        · exact hbefore other hother
      · exact ⟨[], first, items, rfl, by simp, hfirst⟩

/-- What is left to read behind frames that the socket serves: at least what follows them, and more when
the call goes on to a frame that the socket does not serve. -/
theorem rest_of_served {frames : List WireFrame} {more : Bytes} (hopen : ep.ws.closed = false)
    (hrest : ep.sock.rest = WireFrame.stream frames ++ more)
    (hserved : ∀ frame ∈ frames, frame.payload.length ≤ ep.sock.memory.largest) :
    (StateExcept.final (recv ep)).ws.closed = true ∨
    (∃ unread, (StateExcept.final (recv ep)).sock.rest = WireFrame.stream unread ++ more ∧
      (unread = [] → ∀ frame ∈ frames, frame.content.opcode ≠ .close)) ∨
    ∃ ep' rounds chunks messageOpcode, ep'.sock.memory = ep.sock.memory ∧ ep'.sock.rest = more ∧ 0 < rounds ∧
      recv ep = recvLoop rounds chunks messageOpcode ep' ∧
      ∀ frame ∈ frames, frame.content.opcode ≠ .close := by
  rcases recv_assemble frames hopen hrest hserved with
    ⟨hsplit, _, hraised, _, _, hleft, hpassed⟩ | ⟨read, ep', _, hadvanced, hends⟩
  · right
    left
    refine ⟨_, by rw [hraised]; exact hleft, ?_⟩
    rintro rfl frame hframe
    rw [hsplit, List.append_nil] at hframe
    exact hpassed.noClose frame.content (List.mem_map_of_mem hframe)
  · obtain ⟨passed, pending', hpassed, hend⟩ := assemble_cases none frames
    have hpassing : ∀ frame ∈ passed, frame.content.opcode ≠ .close := fun frame hframe =>
      hpassed.noClose frame.content (List.mem_map_of_mem hframe)
    rcases hend with ⟨rfl, hassemble⟩ | ⟨last, unread, hframes, hlast⟩
    · right
      right
      rw [hassemble] at hadvanced hends
      obtain ⟨rounds, chunks, messageOpcode, hrounds, _, hagain⟩ := hends
      have hmore : ep'.sock.rest = more := hadvanced.rest
      exact ⟨ep', rounds, chunks, messageOpcode, hadvanced.memory, hmore, Nat.zero_lt_of_lt hrounds, hagain,
        hpassing⟩
    · have hclean : last.content.opcode ≠ .close → unread = [] →
          ∀ frame ∈ frames, frame.content.opcode ≠ .close := by
        rintro hopcode rfl frame hframe
        rw [hframes] at hframe
        exact hpassed.noClose_concat hopcode frame.content (List.mem_map_of_mem hframe)
      rcases hlast with ⟨_, hassemble⟩ | ⟨hcont, _, hassemble⟩ | ⟨message, hdata, _, _, hassemble⟩
      · left
        rw [hassemble] at hends
        rw [hends]
        rfl
      · right
        left
        rw [hassemble] at hadvanced hends
        refine ⟨unread, by rw [hends]; exact hadvanced.rest, hclean ?_⟩
        rw [hcont]
        decide
      · right
        left
        rw [hassemble] at hadvanced hends
        refine ⟨unread, ?_, hclean (not_close_of_isData hdata)⟩
        rw [hends, final_assembled]
        exact hadvanced.rest

/-- A frame that the socket does not serve stays behind its header. -/
theorem rest_of_oversized {frame : WireFrame} {more : Bytes} {rounds : Nat} (chunks : List Bytes)
    (messageOpcode : Option Opcode) (hrest : ep.sock.rest = frame.bytes ++ more)
    (hlarge : ep.sock.memory.largest < frame.payload.length) (hrounds : 0 < rounds) :
    (StateExcept.final (recvLoop rounds chunks messageOpcode ep)).sock.rest = frame.body ++ more := by
  obtain ⟨rounds, rfl⟩ : ∃ fewer, rounds = fewer + 1 := ⟨rounds - 1, by omega⟩
  have hheader : ep.sock.rest = frame.header.bytes ++ (frame.body ++ more) := by
    rw [hrest, WireFrame.bytes, List.append_assoc]
  obtain ⟨sock', hleft, hframe⟩ := readFrame_header hheader
  rw [frame.complete, ← hleft.memory] at hlarge
  have hread := hframe.trans (StateExcept.bind_error (Socket.recvExact_refused hlarge))
  rw [recvLoop, StateExcept.bind_error (onSocket_error hread)]
  exact hleft.rest

/-- Frames take up bytes. -/
theorem eq_nil_of_stream_eq {frames : List WireFrame} (h : WireFrame.stream frames = []) : frames = [] := by
  have hsplit : frames ++ [] = [] ++ frames := by simp
  exact eq_of_stream_eq hsplit h

/-- Between the two positions of the stream there are frames, the last of them a Close frame. -/
def ClosesBetween (stream rest : Bytes) : Prop :=
  ∃ earlier closing, closing.header.opcode = .close ∧
    stream = WireFrame.stream earlier ++ (WireFrame.bytes closing ++ rest)

theorem ClosesBetween.cons {stream rest : Bytes} (frame : WireFrame) (h : ClosesBetween stream rest) :
    ClosesBetween (frame.bytes ++ stream) rest := by
  rcases h with ⟨earlier, closing, hclosing, rfl⟩
  refine ⟨frame :: earlier, closing, hclosing, ?_⟩
  rw [WireFrame.stream, WireFrame.stream, List.flatMap_cons, List.append_assoc]

/-- When a call has read up to the end of a Close frame, the `WebSocket` is closed. -/
theorem closed_of_readsClose (h : ClosesBetween ep.sock.rest (StateExcept.final (recv ep)).sock.rest) :
    (StateExcept.final (recv ep)).ws.closed = true := by
  rcases h with ⟨earlier, closing, hclosing, hrest⟩
  cases hopen : ep.ws.closed with
  | true =>
      rw [recv, StateExcept.get_bind, if_pos hopen]
      exact hopen
  | false =>
      generalize hfinal : StateExcept.final (recv ep) = last at hrest ⊢
      have hframes : ep.sock.rest = WireFrame.stream (earlier ++ [closing]) ++ last.sock.rest := by
        rw [hrest, stream_append, WireFrame.stream, WireFrame.stream, List.flatMap_singleton,
          List.append_assoc]
      by_cases hserved : ∀ frame ∈ earlier ++ [closing], frame.payload.length ≤ ep.sock.memory.largest
      · have hclose : ¬ ∀ frame ∈ earlier ++ [closing], frame.content.opcode ≠ .close := fun h =>
          h closing (List.mem_append_right _ (List.mem_singleton_self closing)) hclosing
        rcases rest_of_served hopen hframes hserved with
          hclosed | ⟨unread, hunread, hnone⟩ | ⟨_, _, _, _, _, _, _, _, hnone⟩
        · rw [hfinal] at hclosed
          exact hclosed
        · rw [hfinal, List.self_eq_append_left] at hunread
          exact absurd (hnone (eq_nil_of_stream_eq hunread)) hclose
        · exact absurd hnone hclose
      · obtain ⟨before, large, after, hsplit, hbefore, hlarge⟩ := exists_first_not hserved
        have hbehind : ep.sock.rest = WireFrame.stream before ++
            (large.bytes ++ (WireFrame.stream after ++ last.sock.rest)) := by
          rw [hframes, hsplit, stream_append, WireFrame.stream, WireFrame.stream, WireFrame.stream,
            List.flatMap_cons, List.append_assoc, List.append_assoc]
        rcases rest_of_served hopen hbehind hbefore with
          hclosed | ⟨unread, hunread, _⟩ |
            ⟨ep', rounds, chunks, messageOpcode, hmemory, hmore, hrounds, hagain, _⟩
        · rw [hfinal] at hclosed
          exact hclosed
        · have hsize := two_le_length_bytes large
          have hlength := congrArg List.length hunread
          rw [hfinal] at hlength
          simp only [List.length_append] at hlength
          omega
        · have hleft := rest_of_oversized chunks messageOpcode hmore
            (by rw [hmemory]; exact Nat.lt_of_not_le hlarge) hrounds
          have hsize := length_body large
          have hlength := congrArg List.length hleft
          rw [← hagain, hfinal] at hlength
          simp only [List.length_append] at hlength
          rw [← large.complete] at hsize
          omega

/-- One round behind the read closes the `WebSocket` only for a Close frame, when the rounds that follow do
so. -/
theorem handleFrame_closes {again : List Bytes → Option Opcode → WsM WsMessage}
    (hagain : ∀ chunks messageOpcode ep', ep'.ws.closed = false →
      (StateExcept.final (again chunks messageOpcode ep')).ws.closed = true →
      ClosesBetween ep'.sock.rest (StateExcept.final (again chunks messageOpcode ep')).sock.rest)
    (chunks : List Bytes) (messageOpcode : Option Opcode) (frame : WireFrame)
    (hopen : ep.ws.closed = false)
    (hclosed : (StateExcept.final (handleFrame again chunks messageOpcode frame.content ep)).ws.closed = true) :
    ClosesBetween (frame.bytes ++ ep.sock.rest)
      (StateExcept.final (handleFrame again chunks messageOpcode frame.content ep)).sock.rest := by
  have hnever : ∀ {ep' : WsEndpoint}, ep'.ws = ep.ws → ep'.ws.closed ≠ true := by
    intro ep' hws
    rw [hws, hopen]
    exact Bool.false_ne_true
  by_cases hdata : frame.content.isData = true
  · rw [handleFrame_data _ _ _ hdata] at hclosed ⊢
    cases hopcode : messageOpcodeOf frame.content.opcode messageOpcode with
    | error exn =>
        rw [hopcode] at hclosed
        exact absurd hclosed (hnever rfl)
    | ok opcode =>
        rw [hopcode] at hclosed
        by_cases hfin : frame.content.fin = true
        · simp only [if_pos hfin, final_assembled] at hclosed
          exact absurd hclosed (hnever rfl)
        · simp only [if_neg hfin] at hclosed ⊢
          exact (hagain _ _ _ hopen hclosed).cons frame
  · rcases WsFrame.control_cases hdata with hopcode | hopcode | hopcode
    · simp only [handleFrame, hopcode]
      exact ⟨[], frame, hopcode, rfl⟩
    · simp only [handleFrame, hopcode] at hclosed ⊢
      rcases sendFrame_cases .pong frame.content.payload hopen with
        ⟨pong, ep', hsend, hws, hrest, _⟩ | ⟨exn, ep', hsend, hws, _⟩
      · rw [StateExcept.bind_ok hsend] at hclosed ⊢
        have hopen' : ep'.ws.closed = false := (congrArg WebSocket.closed hws).trans hopen
        rw [← hrest]
        exact (hagain _ _ _ hopen' hclosed).cons frame
      · rw [StateExcept.bind_error hsend] at hclosed
        exact absurd hclosed (hnever hws)
    · simp only [handleFrame, hopcode] at hclosed ⊢
      exact (hagain _ _ _ hopen hclosed).cons frame

/-- The loop closes the `WebSocket` only behind a Close frame. -/
theorem recvLoop_closes (rounds : Nat) (chunks : List Bytes) (messageOpcode : Option Opcode)
    (hopen : ep.ws.closed = false)
    (hclosed : (StateExcept.final (recvLoop rounds chunks messageOpcode ep)).ws.closed = true) :
    ClosesBetween ep.sock.rest (StateExcept.final (recvLoop rounds chunks messageOpcode ep)).sock.rest := by
  induction rounds generalizing ep chunks messageOpcode with
  | zero => exact absurd (hopen.symm.trans hclosed) Bool.false_ne_true
  | succ rounds ih =>
      have hresult := readFrame_cases ep.sock
      cases hread : readFrame ep.sock with
      | error exn sock' =>
          have hraised : recvLoop (rounds + 1) chunks messageOpcode ep = .error exn { ep with sock := sock' } :=
            StateExcept.bind_error (onSocket_error hread)
          rw [hraised] at hclosed
          exact absurd (hopen.symm.trans hclosed) Bool.false_ne_true
      | ok content sock' =>
          have hround : recvLoop (rounds + 1) chunks messageOpcode ep =
              handleFrame (recvLoop rounds) chunks messageOpcode content { ep with sock := sock' } :=
            StateExcept.bind_ok (onSocket_ok hread)
          rw [hread] at hresult
          cases hresult with
          | frame stream served left =>
              rw [hround] at hclosed ⊢
              have hopen' : ({ ep with sock := sock' } : WsEndpoint).ws.closed = false := hopen
              rw [stream, ← left.rest]
              exact handleFrame_closes (fun chunks messageOpcode ep' => ih chunks messageOpcode) chunks
                messageOpcode _ hopen' hclosed

/-- When a call closes the `WebSocket`, it has read up to the end of a Close frame. -/
theorem readsClose_of_closed (hopen : ep.ws.closed = false)
    (hclosed : (StateExcept.final (recv ep)).ws.closed = true) :
    ClosesBetween ep.sock.rest (StateExcept.final (recv ep)).sock.rest := by
  have hrecv : recv ep = recvLoop (ep.sock.rest.length + 1) [] none ep := by
    rw [recv, StateExcept.get_bind, if_neg (by simp [hopen])]
  rw [hrecv] at hclosed ⊢
  exact recvLoop_closes _ _ _ hopen hclosed
end WsEndpoint

/-! ### What a call ends -/

namespace ConnectionCall

/-- The call returned, and did not raise. -/
def Returned (call : ConnectionCall) : Prop := ∃ value, call.result = .ok value

/-- The call is a `recv` that reads frames up to the end of a Close frame. -/
def ReadsClose (call : ConnectionCall) : Prop :=
  call.method = .recv ∧
    WsEndpoint.ClosesBetween call.before.ep.sock.rest call.after.ep.sock.rest

/-- The call ends the conversation: a close that returns, or a `recv` that has read the peer's Close
frame. -/
def Ends (call : ConnectionCall) : Prop :=
  (call.method.closes = true ∧ call.Returned) ∨ call.ReadsClose

/-- The call is refused: it raises `ConnectionClosed` and writes nothing. -/
def Refused (call : ConnectionCall) : Prop :=
  call.wrote = [] ∧ ∃ code reason, call.result = .error (.connectionClosed code reason)

end ConnectionCall

namespace Connection

variable {conn : Connection}

/-- A call that ends the conversation leaves the `WebSocket` closed. -/
theorem closed_of_ends {method : WsCall} (h : (conn.call method).Ends) :
    (conn.call method).after.ep.ws.closed = true := by
  cases hopen : conn.ep.ws.closed with
  | true =>
      rw [(call_closed hopen method).1]
      exact hopen
  | false =>
      rcases h with ⟨hcloses, value, hresult⟩ | ⟨hrecv, hreads⟩
      · rw [call_method] at hcloses
        obtain ⟨_, code, reason, hperform⟩ := closes_cases hcloses
        rw [after_close hperform]
        rcases close_open hopen code reason with ⟨exn, hrefused⟩ | ⟨_, hclosed, _⟩
        · rw [call_close_error hperform hrefused] at hresult
          cases hresult
        · exact hclosed
      · rw [call_method] at hrecv
        subst hrecv
        have hafter : (conn.call .recv).after =
            { conn with ep := StateExcept.final (WsEndpoint.recv conn.ep) } := after_onEndpoint some rfl
        rw [hafter] at hreads ⊢
        rw [call_before] at hreads
        exact WsEndpoint.closed_of_readsClose hreads

/-- A call that changes nothing has written nothing. -/
theorem wrote_of_after {method : WsCall} (h : (conn.call method).after = conn) :
    (conn.call method).wrote = [] := by
  rw [ConnectionCall.wrote, h, call_before, List.drop_length]

/-- A close that has written something leaves the `WebSocket` closed. -/
theorem closed_of_wrote {method : WsCall} (hcloses : method.closes = true)
    (h : (conn.call method).wrote ≠ []) : (conn.call method).after.ep.ws.closed = true := by
  cases hopen : conn.ep.ws.closed with
  | true => exact absurd (wrote_of_after (call_closed hopen method).1) h
  | false =>
      obtain ⟨_, code, reason, hperform⟩ := closes_cases hcloses
      rcases close_open hopen code reason with ⟨exn, hrefused⟩ | ⟨_, hclosed, _⟩
      · have hafter : (conn.call method).after = conn := by
          rw [call_close_error hperform hrefused]
        exact absurd (wrote_of_after hafter) h
      · rw [after_close hperform]
        exact hclosed

/-- A close that returns has given the socket back, if a closed `WebSocket` had given it back before. -/
theorem socketClosed_of_returned {method : WsCall} (hcloses : method.closes = true)
    (hreturned : (conn.call method).Returned)
    (horderly : conn.ep.ws.closed = true → conn.socketClosed = true) :
    (conn.call method).after.socketClosed = true := by
  cases hopen : conn.ep.ws.closed with
  | true =>
      rw [(call_closed hopen method).1]
      exact horderly hopen
  | false =>
      obtain ⟨_, code, reason, hperform⟩ := closes_cases hcloses
      rcases close_open hopen code reason with ⟨exn, hrefused⟩ | ⟨_, _, hgiven⟩
      · rcases hreturned with ⟨value, hresult⟩
        rw [call_close_error hperform hrefused] at hresult
        cases hresult
      · rw [after_close hperform]
        exact hgiven

/-- A call on a closed `WebSocket` writes nothing, and is refused unless it closes. -/
theorem call_refused (hclosed : conn.ep.ws.closed = true) (method : WsCall) :
    (conn.call method).wrote = [] ∧ (method.closes = false → (conn.call method).Refused) := by
  obtain ⟨hafter, hresult⟩ := call_closed hclosed method
  constructor
  · exact wrote_of_after hafter
  · intro hcloses
    rw [hcloses] at hresult
    exact ⟨wrote_of_after hafter, hresult⟩

/-- Only a `recv` that has read the peer's Close frame closes the `WebSocket` and not its socket. -/
theorem readsClose_of_call {method : WsCall} (hopen : conn.ep.ws.closed = false)
    (hclosed : (conn.call method).after.ep.ws.closed = true)
    (hkept : (conn.call method).after.socketClosed = false) : (conn.call method).ReadsClose := by
  cases hcloses : method.closes with
  | true =>
      obtain ⟨_, code, reason, hperform⟩ := closes_cases hcloses
      rw [after_close hperform] at hclosed hkept
      rcases close_open hopen code reason with ⟨exn, hrefused⟩ | ⟨_, _, hgiven⟩
      · rw [hrefused] at hclosed
        exact absurd (hopen.symm.trans hclosed) Bool.false_ne_true
      · exact absurd (hkept.symm.trans hgiven) Bool.false_ne_true
  | false =>
      have hsend : ∀ opcode payload,
          (StateExcept.final (WsEndpoint.sendFrame opcode payload conn.ep)).ws.closed = false := by
        intro opcode payload
        rw [(WsEndpoint.sendFrame_wrote opcode payload hopen).2]
        exact hopen
      cases method with
      | send text =>
          rw [after_onEndpoint (fun _ => none) rfl] at hclosed
          exact absurd ((hsend _ _).symm.trans hclosed) Bool.false_ne_true
      | sendBytes data =>
          rw [after_onEndpoint (fun _ => none) rfl] at hclosed
          exact absurd ((hsend _ _).symm.trans hclosed) Bool.false_ne_true
      | recv =>
          rw [ConnectionCall.ReadsClose, call_method, call_before]
          rw [after_onEndpoint some rfl] at hclosed ⊢
          exact ⟨rfl, WsEndpoint.readsClose_of_closed hopen hclosed⟩
      | close code reason => cases hcloses
      | «exit» => cases hcloses

end Connection

/-! ### Every sequence of calls -/

namespace Connection

variable {conn : Connection}

/-- Each call of a run is a call in some state. -/
theorem exists_state {methods : List WsCall} {call : ConnectionCall} (h : call ∈ run conn methods) :
    ∃ before method, call = Connection.call before method := by
  induction methods generalizing conn with
  | nil => cases h
  | cons method methods ih =>
      rcases List.mem_cons.mp h with rfl | h
      · exact ⟨conn, method, rfl⟩
      · exact ih h

/-- Behind a state in which the `WebSocket` is closed it stays so. -/
theorem run_closed (hclosed : conn.ep.ws.closed = true) {methods : List WsCall} {call : ConnectionCall}
    (h : call ∈ run conn methods) :
    call.wrote = [] ∧ (call.method.closes = false → call.Refused) := by
  induction methods with
  | nil => cases h
  | cons method methods ih =>
      rw [run, (call_closed hclosed method).1] at h
      rcases List.mem_cons.mp h with rfl | h
      · rw [call_method]
        exact call_refused hclosed method
      · exact ih h

/-- What holds between a call and every later one holds throughout a run. -/
theorem run_pairwise {r : ConnectionCall → ConnectionCall → Prop}
    (h : ∀ (before : Connection) (method : WsCall) (methods : List WsCall) (later : ConnectionCall),
      later ∈ run (before.call method).after methods → r (before.call method) later)
    (conn : Connection) (methods : List WsCall) : (run conn methods).Pairwise r := by
  induction methods generalizing conn with
  | nil => exact List.Pairwise.nil
  | cons method methods ih =>
      rw [run, List.pairwise_cons]
      exact ⟨fun later hlater => h conn method methods later hlater, ih _⟩

end Connection

/-- The life of a `WebSocket` over a run of calls: calls write frames of their own opcode; behind a Close
frame nothing is written, and so no second one; behind a close that has returned, and behind the peer's
Close frame, every call to send or receive is refused; and a close that returns has closed the socket. -/
structure Lifecycle (calls : List ConnectionCall) : Prop where
  ownFrames : ∀ call ∈ calls, call.WritesOwnFrames
  oneClose : calls.Pairwise fun earlier later =>
    earlier.method.closes = true → earlier.wrote ≠ [] → later.wrote = []
  finished : calls.Pairwise fun earlier later =>
    earlier.Ends → later.method.closes = false → later.Refused
  released : ∀ call ∈ calls, call.method.closes = true → call.Returned → call.after.socketClosed = true

/-- The call does not close a `WebSocket` that is closed already while its socket is not. -/
def ConnectionCall.Orderly (call : ConnectionCall) : Prop :=
  call.method.closes = true → call.before.ep.ws.closed = true → call.before.socketClosed = true

/-- For every `WebSocket`, whatever its peer sends and wherever its socket fails, and for every sequence of
calls: the life of the `WebSocket` is as it should be exactly when all calls are orderly. -/
theorem lifecycle_iff (conn : Connection) (methods : List WsCall) :
    Lifecycle (conn.run methods) ↔ ∀ call ∈ conn.run methods, call.Orderly := by
  constructor
  · intro h call hcall hcloses hclosed
    have hreleased := h.released call hcall hcloses
    obtain ⟨before, method, rfl⟩ := Connection.exists_state hcall
    rw [Connection.call_method] at hcloses
    rw [Connection.call_before] at hclosed ⊢
    obtain ⟨hafter, hresult⟩ := Connection.call_closed hclosed method
    rw [hcloses] at hresult
    rw [hafter] at hreleased
    exact hreleased ⟨none, hresult⟩
  · intro h
    constructor
    · intro call hcall
      obtain ⟨before, method, rfl⟩ := Connection.exists_state hcall
      exact Connection.call_writesOwnFrames before method
    · apply Connection.run_pairwise
      intro before method methods later hlater hcloses hwrote
      rw [Connection.call_method] at hcloses
      exact (Connection.run_closed (Connection.closed_of_wrote hcloses hwrote) hlater).1
    · apply Connection.run_pairwise
      intro before method methods later hlater hends hcloses
      exact (Connection.run_closed (Connection.closed_of_ends hends) hlater).2 hcloses
    · intro call hcall hcloses hreturned
      have horderly := h call hcall hcloses
      obtain ⟨before, method, rfl⟩ := Connection.exists_state hcall
      rw [Connection.call_method] at hcloses
      rw [Connection.call_before] at horderly
      exact Connection.socketClosed_of_returned hcloses hreturned horderly

/-- An open `WebSocket` to which the peer has sent an empty Close frame. -/
def closedByPeer : Connection where
  ep := bytesEndpoint [0x88, 0x00]
  socketClosed := false

/-- `recv` consumes the frame; the `close` behind it returns, and the socket stays open. -/
theorem close_behind_peer_leaks :
    ((closedByPeer.call .recv).result = .error (.connectionClosed none "") ∧
      ((closedByPeer.call .recv).after.call (.close 1000 "")).result = .ok none ∧
      ((closedByPeer.call .recv).after.call (.close 1000 "")).after.socketClosed = false) ∧
      ¬ Lifecycle (closedByPeer.run [.recv, .close 1000 ""]) := by
  have hrecv : (closedByPeer.call .recv).result = .error (.connectionClosed none "") := by
    decide +kernel
  have hclose : ((closedByPeer.call .recv).after.call (.close 1000 "")).result = .ok none := by
    decide +kernel
  have hleak : ((closedByPeer.call .recv).after.call (.close 1000 "")).after.socketClosed = false := by
    decide +kernel
  refine ⟨⟨hrecv, hclose, hleak⟩, ?_⟩
  intro h
  have hmember : (closedByPeer.call .recv).after.call (.close 1000 "") ∈
      closedByPeer.run [.recv, .close 1000 ""] :=
    List.mem_cons_of_mem _ List.mem_cons_self
  have hreleased := h.released _ hmember (by rw [Connection.call_method]; rfl) ⟨none, hclose⟩
  rw [hleak] at hreleased
  cases hreleased

end Priestly
