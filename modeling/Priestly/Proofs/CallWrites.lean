/-
Module: Priestly.Proofs.CallWrites
Layer: Proofs
Purpose: What one call of a method of a `WebSocket` leaves and writes: frames of its own opcode, each of them
  whole where the socket takes every write, and the last of them perhaps cut where it does not.
Imports: Priestly.Proofs.MessageGrammar, Priestly.Transport.Closing
Trusted boundary: none
Main exports: FrameOf, Wrote, recv_received, call_closed, close_open, call_writesOwnFrames
-/
import Priestly.Proofs.MessageGrammar
import Priestly.Transport.Closing

namespace Priestly

open ByteCodec

/-! ### Frames that are written -/

/-- The bytes are an encoded frame with the opcode. -/
def FrameOf (opcode : Opcode) (bytes : Bytes) : Prop :=
  ∃ payload mask, encodeFrame opcode payload mask = .ok bytes

/-- The bytes are an encoded frame with the opcode and the payload. -/
def FrameWith (opcode : Opcode) (payload bytes : Bytes) : Prop :=
  ∃ mask, encodeFrame opcode payload mask = .ok bytes

theorem FrameWith.frameOf {opcode : Opcode} {payload bytes : Bytes} (h : FrameWith opcode payload bytes) :
    FrameOf opcode bytes := by
  rcases h with ⟨mask, hencode⟩
  exact ⟨payload, mask, hencode⟩

/-- The bytes are a pong that RFC 6455 allows. -/
def PongFrame (bytes : Bytes) : Prop := ∃ payload, payload.length < 126 ∧ FrameWith .pong payload bytes

theorem PongFrame.frameOf {bytes : Bytes} (h : PongFrame bytes) : FrameOf .pong bytes := by
  rcases h with ⟨payload, _, hframe⟩
  exact hframe.frameOf

/-- From one endpoint to the other, frames of a kind have been written, the last of them perhaps not to its
end where a write fails. -/
structure Wrote (kind : Bytes → Prop) (most : Nat) (ep ep' : WsEndpoint) : Prop where
  frames : ∃ (frames : List Bytes) (delta : Bytes), (∀ frame ∈ frames, kind frame) ∧
    frames.length ≤ most ∧ delta <+: frames.flatten ∧ ep'.sock.written = ep.sock.written ++ delta ∧
    (ep.sock.Works → delta = frames.flatten)
  works : ep.sock.Works → ep'.sock.Works

namespace Wrote

variable {kind : Bytes → Prop} {most : Nat} {ep ep' ep'' : WsEndpoint} {frame : Bytes}

theorem nothing (hwritten : ep'.sock.written = ep.sock.written) (hfaults : ep'.sock.faults = ep.sock.faults) :
    Wrote kind most ep ep' where
  frames := by
    refine ⟨[], [], by simp, Nat.zero_le _, List.nil_prefix, ?_, fun _ => rfl⟩
    rw [hwritten, List.append_nil]
  works := fun hworks => hworks.of_faults (hfaults ▸ List.Subset.refl _)

/-- One frame that is written whole, and then others. -/
theorem cons (hframe : kind frame) (hwritten : ep'.sock.written = ep.sock.written ++ frame)
    (hfaults : ep'.sock.faults ⊆ ep.sock.faults) (h : Wrote kind most ep' ep'') :
    Wrote kind (most + 1) ep ep'' where
  frames := by
    rcases h.frames with ⟨frames, delta, hframes, hmost, hprefix, hdelta, hwhole⟩
    refine ⟨frame :: frames, frame ++ delta, ?_, ?_, ?_, ?_, ?_⟩
    · intro other hother
      rcases List.mem_cons.mp hother with rfl | hother
      · exact hframe
      · exact hframes other hother
    · rw [List.length_cons]
      omega
    · rw [List.flatten_cons]
      exact (List.prefix_append_right_inj frame).mpr hprefix
    · rw [hdelta, hwritten, List.append_assoc]
    · intro hworks
      rw [hwhole (hworks.of_faults hfaults), List.flatten_cons]
  works := fun hworks => h.works (hworks.of_faults hfaults)

/-- A frame of which the socket takes a part. -/
theorem cut (taken : Nat) (hframe : kind frame)
    (hwritten : ep'.sock.written = ep.sock.written ++ frame.take taken) (hfails : ¬ ep.sock.Works) :
    Wrote kind 1 ep ep' where
  frames := by
    refine ⟨[frame], frame.take taken, by simpa using hframe, le_refl _, ?_, hwritten, ?_⟩
    · rw [List.flatten_singleton]
      exact List.take_prefix taken frame
    · exact fun hworks => absurd hworks hfails
  works := fun hworks => absurd hworks hfails

/-- The frames may be counted, and described, less exactly. -/
theorem mono {kind' : Bytes → Prop} {most' : Nat} (h : Wrote kind most ep ep')
    (hkind : ∀ frame, kind frame → kind' frame) (hmost : most ≤ most') : Wrote kind' most' ep ep' where
  frames := by
    rcases h.frames with ⟨frames, delta, hframes, hlength, hdelta⟩
    exact ⟨frames, delta, fun frame hframe => hkind frame (hframes frame hframe), hlength.trans hmost, hdelta⟩
  works := h.works

/-- Nothing is written before. -/
theorem earlier {ep₀ : WsEndpoint} (h : Wrote kind most ep ep') (hwritten : ep.sock.written = ep₀.sock.written)
    (hfaults : ep.sock.faults = ep₀.sock.faults) : Wrote kind most ep₀ ep' where
  frames := by
    rcases h.frames with ⟨frames, delta, hframes, hmost, hprefix, hdelta, hwhole⟩
    rw [hwritten] at hdelta
    refine ⟨frames, delta, hframes, hmost, hprefix, hdelta, ?_⟩
    exact fun hworks => hwhole (hworks.of_faults (hfaults ▸ List.Subset.refl _))
  works := fun hworks => h.works (hworks.of_faults (hfaults ▸ List.Subset.refl _))

end Wrote

namespace WsEndpoint

variable {ep : WsEndpoint}

/-! ### Sending -/

/-- Handing a frame to the socket writes it, or a part of it with an `OSError`. -/
theorem sendall_cases {kind : Bytes → Prop} {frame : Bytes} (hframe : kind frame) (drawn : Nat) :
    (∃ ep', onSocket (Socket.sendall frame) { ep with drawn := drawn } = .ok () ep' ∧ ep'.ws = ep.ws ∧
      ep'.sock.rest = ep.sock.rest ∧ ep'.sock.written = ep.sock.written ++ frame ∧
      ep'.sock.faults ⊆ ep.sock.faults) ∨
    ∃ text ep', onSocket (Socket.sendall frame) { ep with drawn := drawn } = .error (.osError text) ep' ∧
      ep'.ws = ep.ws ∧ Wrote kind 1 ep ep' ∧ ¬ ep.sock.Works := by
  rcases @onSocket_sendall { ep with drawn := drawn } frame with hwrite | ⟨fault, hfault, hwrite⟩
  · exact .inl ⟨_, hwrite, rfl, rfl, rfl, (List.tail_sublist _).subset⟩
  · have hfails : ¬ ep.sock.Works := fun hworks => Option.some_ne_none fault (hworks _ hfault)
    exact .inr ⟨_, _, hwrite, rfl, Wrote.cut fault.taken hframe rfl hfails, hfails⟩

/-- `_send` on an open `WebSocket`: the frame is written, or it raises and has written a part at most, and
nothing where the socket works. -/
theorem sendFrame_cases (opcode : Opcode) (payload : Bytes) (hopen : ep.ws.closed = false) :
    (∃ frame ep', sendFrame opcode payload ep = .ok () ep' ∧ ep'.ws = ep.ws ∧
      ep'.sock.rest = ep.sock.rest ∧ FrameWith opcode payload frame ∧
      ep'.sock.written = ep.sock.written ++ frame ∧ ep'.sock.faults ⊆ ep.sock.faults) ∨
    ∃ exn ep', sendFrame opcode payload ep = .error exn ep' ∧ ep'.ws = ep.ws ∧
      Wrote (FrameWith opcode payload) 1 ep ep' ∧ (ep.sock.Works → ep' = ep) := by
  have hout : ep.ws.sendFrame (ep.urandom ep.drawn) opcode payload =
      encodeFrame opcode payload (if ep.ws.isClient then some (ep.urandom ep.drawn) else none) := by
    rw [WebSocket.sendFrame, if_neg (by simp [hopen])]
  cases hencode : encodeFrame opcode payload
      (if ep.ws.isClient then some (ep.urandom ep.drawn) else none) with
  | error exn =>
      right
      refine ⟨sendError exn, ep, ?_, rfl, Wrote.nothing rfl rfl, fun _ => rfl⟩
      rw [sendFrame, StateExcept.get_bind, hout, hencode]
      rfl
  | ok frame =>
      have hframe : FrameWith opcode payload frame := ⟨_, hencode⟩
      have hsend : sendFrame opcode payload ep = onSocket (Socket.sendall frame)
          { ep with drawn := if ep.ws.isClient then ep.drawn + 1 else ep.drawn } := by
        rw [sendFrame, StateExcept.get_bind, hout, hencode]
        exact StateExcept.set_bind
      rw [hsend]
      rcases sendall_cases hframe _ with
        ⟨ep', hwrite, hws, hrest, hwritten, hfaults⟩ | ⟨text, ep', hwrite, hws, hwrote, hfails⟩
      · exact .inl ⟨frame, ep', hwrite, hws, hrest, hframe, hwritten, hfaults⟩
      · exact .inr ⟨_, ep', hwrite, hws, hwrote, fun hworks => absurd hworks hfails⟩

/-- `_send` on an open `WebSocket` writes its frame at most, and leaves the `WebSocket` open. -/
theorem sendFrame_wrote (opcode : Opcode) (payload : Bytes) (hopen : ep.ws.closed = false) :
    Wrote (FrameWith opcode payload) 1 ep (StateExcept.final (sendFrame opcode payload ep)) ∧
      (StateExcept.final (sendFrame opcode payload ep)).ws = ep.ws := by
  rcases sendFrame_cases opcode payload hopen with
    ⟨frame, ep', hsend, hws, _, hframe, hwritten, hfaults⟩ | ⟨exn, ep', hsend, hws, hwrote, _⟩
  · rw [hsend]
    exact ⟨Wrote.cons hframe hwritten hfaults (Wrote.nothing rfl rfl), hws⟩
  · rw [hsend]
    exact ⟨hwrote, hws⟩

/-! ### Receiving -/

/-- Reading a frame writes nothing, and a control frame that is read is short. -/
theorem readFrame_writes (ep : WsEndpoint) :
    (StateExcept.final (onSocket readFrame ep)).sock.written = ep.sock.written ∧
      (StateExcept.final (onSocket readFrame ep)).sock.faults = ep.sock.faults ∧
      (StateExcept.final (onSocket readFrame ep)).ws = ep.ws ∧
      ∀ frame ep', onSocket readFrame ep = .ok frame ep' → frame.opcode.isControl = true →
        frame.payload.length < 126 := by
  have hresult := readFrame_cases ep.sock
  generalize hread : readFrame ep.sock = result at hresult
  rw [onSocket, hread]
  cases hresult with
  | frame _ _ left =>
      refine ⟨left.written, left.faults, rfl, ?_⟩
      intro frame ep' hframe hcontrol
      cases hframe
      exact length_control hcontrol
  | oversized _ _ left =>
      refine ⟨left.written, left.faults, rfl, ?_⟩
      intro frame ep' hframe
      cases hframe
  | ended left =>
      refine ⟨left.written, left.faults, rfl, ?_⟩
      intro frame ep' hframe
      cases hframe
  | malformed left =>
      refine ⟨left.written, left.faults, rfl, ?_⟩
      intro frame ep' hframe
      cases hframe

/-- What the loop of `recv` leaves: it has written pongs. -/
def Received (ep ep' : WsEndpoint) : Prop := ∃ most, Wrote PongFrame most ep ep'

/-- Nothing is written on the way to the state. -/
theorem Received.nothing {ep' : WsEndpoint} (hwritten : ep'.sock.written = ep.sock.written)
    (hfaults : ep'.sock.faults = ep.sock.faults) : Received ep ep' :=
  ⟨0, Wrote.nothing hwritten hfaults⟩

theorem final_assembled (opcode : Opcode) (data : Bytes) (ep : WsEndpoint) :
    StateExcept.final (assembled opcode data ep) = ep := by
  rw [assembled]
  by_cases htext : opcode = .text
  · rw [if_pos htext]
    cases utf8Decode data with
    | none => rfl
    | some text => rfl
  · rw [if_neg htext]
    rfl

/-- One round behind the read, when the rounds that follow only write pongs. -/
theorem handleFrame_received {again : List Bytes → Option Opcode → WsM WsMessage}
    (hagain : ∀ chunks messageOpcode ep', ep'.ws.closed = false →
      Received ep' (StateExcept.final (again chunks messageOpcode ep')))
    (chunks : List Bytes) (messageOpcode : Option Opcode) (frame : WsFrame)
    (hshort : frame.opcode.isControl = true → frame.payload.length < 126)
    (hopen : ep.ws.closed = false) :
    Received ep (StateExcept.final (handleFrame again chunks messageOpcode frame ep)) := by
  by_cases hdata : frame.isData = true
  · rw [handleFrame_data _ _ _ hdata]
    cases messageOpcodeOf frame.opcode messageOpcode with
    | error exn => exact Received.nothing rfl rfl
    | ok opcode =>
        by_cases hfin : frame.fin = true
        · simp only [if_pos hfin, final_assembled]
          exact Received.nothing rfl rfl
        · simp only [if_neg hfin]
          exact hagain _ _ ep hopen
  · rcases WsFrame.control_cases hdata with hopcode | hopcode | hopcode
    · rw [handleFrame, hopcode]
      exact Received.nothing rfl rfl
    · have hpong : ∀ pong, FrameWith .pong frame.payload pong → PongFrame pong := fun pong hpong =>
        ⟨frame.payload, hshort (by rw [hopcode]; rfl), hpong⟩
      simp only [handleFrame, hopcode]
      rcases sendFrame_cases .pong frame.payload hopen with
        ⟨pong, ep₁, hsend, hws, _, hframe, hwritten, hfaults⟩ | ⟨exn, ep₁, hsend, _, hwrote, _⟩
      · rw [StateExcept.bind_ok hsend]
        have hopen₁ : ep₁.ws.closed = false := (congrArg WebSocket.closed hws).trans hopen
        rcases hagain chunks messageOpcode ep₁ hopen₁ with ⟨most, hwrote⟩
        exact ⟨most + 1, hwrote.cons (hpong pong hframe) hwritten hfaults⟩
      · rw [StateExcept.bind_error hsend]
        exact ⟨1, hwrote.mono hpong (le_refl 1)⟩
    · simp only [handleFrame, hopcode]
      exact hagain chunks messageOpcode ep hopen

theorem recvLoop_received (rounds : Nat) (chunks : List Bytes) (messageOpcode : Option Opcode)
    (hopen : ep.ws.closed = false) :
    Received ep (StateExcept.final (recvLoop rounds chunks messageOpcode ep)) := by
  induction rounds generalizing ep chunks messageOpcode with
  | zero => exact Received.nothing rfl rfl
  | succ rounds ih =>
      obtain ⟨hwritten, hfaults, hws, hcontrol⟩ := readFrame_writes ep
      rw [recvLoop]
      cases hread : onSocket readFrame ep with
      | error exn ep₁ =>
          rw [hread] at hwritten hfaults
          rw [StateExcept.bind_error hread]
          exact Received.nothing hwritten hfaults
      | ok frame ep₁ =>
          have hshort := hcontrol frame ep₁ hread
          rw [hread] at hwritten hfaults hws
          have hopen₁ : ep₁.ws.closed = false := (congrArg WebSocket.closed hws).trans hopen
          rcases handleFrame_received (fun chunks messageOpcode ep' h => ih chunks messageOpcode h)
            chunks messageOpcode frame hshort hopen₁ with ⟨most, hround⟩
          rw [StateExcept.bind_ok hread]
          exact ⟨most, hround.earlier hwritten hfaults⟩

/-- `recv` writes pongs at most. -/
theorem recv_received (ep : WsEndpoint) : Received ep (StateExcept.final (recv ep)) := by
  cases hclosed : ep.ws.closed with
  | true =>
      rw [recv, StateExcept.get_bind, if_pos hclosed]
      exact Received.nothing rfl rfl
  | false =>
      rw [recv, StateExcept.get_bind, if_neg (by simp [hclosed])]
      exact recvLoop_received _ _ _ hclosed

/-! ### Writing a Close frame -/

section IgnoringOSError

variable {action : WsM Unit} {ep' : WsEndpoint}

theorem ignoringOSError_ok (h : action ep = .ok () ep') : ignoringOSError action ep = .ok () ep' := by
  simp only [ignoringOSError, tryCatch, tryCatchThe, MonadExceptOf.tryCatch, EStateM.tryCatch, h]

theorem ignoringOSError_ignored {text : String} (h : action ep = .error (.osError text) ep') :
    ignoringOSError action ep = .ok () ep' := by
  simp only [ignoringOSError, tryCatch, tryCatchThe, MonadExceptOf.tryCatch, EStateM.tryCatch, h]
  rfl

theorem ignoringOSError_raised {exn : TransportExn} (hother : ∀ text, exn ≠ .osError text)
    (h : action ep = .error exn ep') : ignoringOSError action ep = .error exn ep' := by
  simp only [ignoringOSError, tryCatch, tryCatchThe, MonadExceptOf.tryCatch, EStateM.tryCatch, h]
  cases exn with
  | osError text => exact absurd rfl (hother text)
  | _ => rfl

end IgnoringOSError

/-- The Close frame that is handed to the socket. -/
theorem writeClose_ok {payload frame : Bytes} (hencode : encodeFrame .close payload
    (if ep.ws.isClient then some (ep.urandom ep.drawn) else none) = .ok frame) :
    writeClose payload ep = onSocket (Socket.sendall frame)
      { ep with drawn := if ep.ws.isClient then ep.drawn + 1 else ep.drawn } := by
  rw [writeClose, StateExcept.get_bind, hencode]
  exact StateExcept.set_bind

/-- No Close frame is made, and nothing is written. -/
theorem writeClose_error {payload : Bytes} {exn : Exn} (hencode : encodeFrame .close payload
    (if ep.ws.isClient then some (ep.urandom ep.drawn) else none) = .error exn) :
    ignoringOSError (writeClose payload) ep = .error (sendError exn) ep := by
  apply ignoringOSError_raised
  · intro text
    cases exn <;> exact nofun
  · rw [writeClose, StateExcept.get_bind, hencode]
    rfl

/-- Whatever happens, the Close frame is written at most. -/
theorem writeClose_wrote (payload : Bytes) (ep : WsEndpoint) :
    Wrote (FrameWith .close payload) 1 ep (StateExcept.final (ignoringOSError (writeClose payload) ep)) := by
  cases hencode : encodeFrame .close payload
      (if ep.ws.isClient then some (ep.urandom ep.drawn) else none) with
  | error exn =>
      rw [writeClose_error hencode]
      exact Wrote.nothing rfl rfl
  | ok frame =>
      have hframe : FrameWith .close payload frame := ⟨_, hencode⟩
      have hwrite := writeClose_ok hencode
      rcases sendall_cases hframe (if ep.ws.isClient then ep.drawn + 1 else ep.drawn) with
        ⟨ep', hsent, _, _, hwritten, hfaults⟩ | ⟨text, ep', hfailed, _, hwrote, _⟩
      · rw [ignoringOSError_ok (hwrite.trans hsent)]
        exact Wrote.cons hframe hwritten hfaults (Wrote.nothing rfl rfl)
      · rw [ignoringOSError_ignored (hwrite.trans hfailed)]
        exact hwrote

end WsEndpoint

/-! ### One call -/

namespace ConnectionCall

/-- What a call has written. -/
def wrote (call : ConnectionCall) : Bytes :=
  call.after.ep.sock.written.drop call.before.ep.sock.written.length

/-- The call writes frames of its own opcode, and only `recv` more than one. The last frame may be cut where
the socket fails. -/
def WritesOwnFrames (call : ConnectionCall) : Prop :=
  ∃ frames : List Bytes, (∀ frame ∈ frames, FrameOf call.method.opcode frame) ∧
    (call.method ≠ .recv → frames.length ≤ 1) ∧ call.wrote <+: frames.flatten ∧
    call.after.ep.sock.written = call.before.ep.sock.written ++ call.wrote

end ConnectionCall

namespace Connection

variable {conn : Connection}

@[simp] theorem call_method (conn : Connection) (method : WsCall) : (conn.call method).method = method := by
  rw [call]
  cases perform method conn with
  | ok value after => rfl
  | error exn after => rfl

@[simp] theorem call_before (conn : Connection) (method : WsCall) : (conn.call method).before = conn := by
  rw [call]
  cases perform method conn with
  | ok value after => rfl
  | error exn after => rfl

theorem call_after (conn : Connection) (method : WsCall) :
    (conn.call method).after = StateExcept.final (perform method conn) := by
  rw [call]
  cases perform method conn with
  | ok value after => rfl
  | error exn after => rfl

theorem call_of_ok {method : WsCall} {value : Option WsMessage} {after : Connection}
    (h : perform method conn = .ok value after) :
    conn.call method = { method, before := conn, result := .ok value, after } := by
  rw [call, h]

theorem call_of_error {method : WsCall} {exn : TransportExn} {after : Connection}
    (h : perform method conn = .error exn after) :
    conn.call method = { method, before := conn, result := .error exn, after } := by
  rw [call, h]

section OnEndpoint

variable {α : Type} {action : WsM α} {ep : WsEndpoint}

theorem onEndpoint_ok {value : α} (h : action conn.ep = .ok value ep) :
    onEndpoint action conn = .ok value { conn with ep := ep } := by
  rw [onEndpoint, h]

theorem onEndpoint_error {exn : TransportExn} (h : action conn.ep = .error exn ep) :
    onEndpoint action conn = .error exn { conn with ep := ep } := by
  rw [onEndpoint, h]

/-- What a method leaves that uses the `WebSocket` and then returns. -/
theorem final_onEndpoint {β : Type} (action : WsM α) (wrap : α → β) (conn : Connection) :
    StateExcept.final ((do return wrap (← onEndpoint action) : ConnectionM β) conn) =
      { conn with ep := StateExcept.final (action conn.ep) } := by
  cases haction : action conn.ep with
  | ok value ep =>
      rw [StateExcept.bind_ok (onEndpoint_ok haction)]
      rfl
  | error exn ep =>
      rw [StateExcept.bind_error (onEndpoint_error haction)]
      rfl

end OnEndpoint

/-- A closed `WebSocket` refuses to send and to receive, does nothing when it is closed again, and is left
as it is. -/
theorem call_closed (hclosed : conn.ep.ws.closed = true) (method : WsCall) :
    (conn.call method).after = conn ∧
      if method.closes then (conn.call method).result = .ok none
      else ∃ code reason, (conn.call method).result = .error (.connectionClosed code reason) := by
  have hsend : ∀ opcode payload, WsEndpoint.sendFrame opcode payload conn.ep =
      .error (.connectionClosed none "send on closed connection") conn.ep := by
    intro opcode payload
    have hout : ∀ key, conn.ep.ws.sendFrame key opcode payload = .error (.connectionClosed
        "connection closed (code=None, reason='send on closed connection')") := fun key =>
      if_pos hclosed
    rw [WsEndpoint.sendFrame, StateExcept.get_bind, hout]
    rfl
  have hrecv : WsEndpoint.recv conn.ep =
      .error (.connectionClosed none "recv on closed connection") conn.ep := by
    rw [WsEndpoint.recv, StateExcept.get_bind, if_pos hclosed]
    rfl
  have hclose : ∀ code reason, close code reason conn = .ok () conn := fun code reason => if_pos hclosed
  have hrefused : ∀ {method : WsCall} {text : String}, method.closes = false →
      perform method conn = .error (.connectionClosed none text) conn →
      (conn.call method).after = conn ∧ if method.closes then (conn.call method).result = .ok none
        else ∃ code reason, (conn.call method).result = .error (.connectionClosed code reason) := by
    intro method text hopen hperform
    rw [call_of_error hperform, hopen]
    exact ⟨rfl, _, _, rfl⟩
  have hreturned : ∀ {method : WsCall}, method.closes = true → perform method conn = .ok none conn →
      (conn.call method).after = conn ∧ if method.closes then (conn.call method).result = .ok none
        else ∃ code reason, (conn.call method).result = .error (.connectionClosed code reason) := by
    intro method hcloses hperform
    rw [call_of_ok hperform, hcloses]
    exact ⟨rfl, rfl⟩
  cases method with
  | send text => exact hrefused rfl (StateExcept.bind_error (onEndpoint_error (hsend _ _)))
  | sendBytes data => exact hrefused rfl (StateExcept.bind_error (onEndpoint_error (hsend _ _)))
  | recv => exact hrefused rfl (StateExcept.bind_error (onEndpoint_error hrecv))
  | close code reason => exact hreturned rfl (StateExcept.bind_ok (hclose code reason))
  | «exit» => exact hreturned rfl (StateExcept.bind_ok (hclose 1000 ""))

/-- What `close` does on an open `WebSocket`: its code is refused and nothing happens, or it writes a Close
frame at most and the socket is given back. -/
theorem close_open (hopen : conn.ep.ws.closed = false) (code : Int) (reason : String) :
    (∃ exn, close code reason conn = .error exn conn) ∨
    (Wrote (FrameOf .close) 1 conn.ep (StateExcept.final (close code reason conn)).ep ∧
      (StateExcept.final (close code reason conn)).ep.ws.closed = true ∧
      (StateExcept.final (close code reason conn)).socketClosed = true) := by
  rw [close, if_neg (by simp [hopen])]
  cases hpack : structPackH code with
  | error exn => exact .inl ⟨_, rfl⟩
  | ok packed =>
      right
      have hwrote := (WsEndpoint.writeClose_wrote (packed ++ utf8Encode reason) conn.ep).mono
        (fun _ => FrameWith.frameOf) (le_refl 1)
      simp only
      generalize WsEndpoint.ignoringOSError (WsEndpoint.writeClose (packed ++ utf8Encode reason)) conn.ep =
        result at hwrote ⊢
      cases result with
      | ok value ep => exact ⟨⟨hwrote.frames, hwrote.works⟩, rfl, rfl⟩
      | error exn ep => exact ⟨⟨hwrote.frames, hwrote.works⟩, rfl, rfl⟩

/-- What has been written is what the socket says. -/
theorem writesOwnFrames_of_wrote {method : WsCall} (most : Nat) (hmost : method ≠ .recv → most ≤ 1)
    (h : Wrote (FrameOf method.opcode) most conn.ep (conn.call method).after.ep) :
    (conn.call method).WritesOwnFrames := by
  rcases h.frames with ⟨frames, delta, hframes, hlength, hprefix, hdelta, _⟩
  have hwrote : (conn.call method).wrote = delta := by
    rw [ConnectionCall.wrote, hdelta, call_before, List.drop_left]
  refine ⟨frames, ?_, ?_, ?_, ?_⟩
  · rw [call_method]
    exact hframes
  · rw [call_method]
    exact fun hmethod => hlength.trans (hmost hmethod)
  · rw [hwrote]
    exact hprefix
  · rw [hwrote, hdelta, call_before]

/-- What a call leaves that does not close. -/
theorem after_onEndpoint {α : Type} {method : WsCall} {action : WsM α} (wrap : α → Option WsMessage)
    (h : perform method = do return wrap (← onEndpoint action)) :
    (conn.call method).after = { conn with ep := StateExcept.final (action conn.ep) } := by
  rw [call_after, h, final_onEndpoint]

/-- What a call leaves that closes. -/
theorem after_close {method : WsCall} {code : Int} {reason : String}
    (h : perform method = do close code reason; return none) :
    (conn.call method).after = StateExcept.final (close code reason conn) := by
  rw [call_after, h]
  cases hclose : close code reason conn with
  | ok value after =>
      rw [StateExcept.bind_ok hclose]
      rfl
  | error exn after =>
      rw [StateExcept.bind_error hclose]
      rfl

/-- A close that raises. -/
theorem call_close_error {method : WsCall} {code : Int} {reason : String} {exn : TransportExn}
    {after : Connection} (hperform : perform method = do close code reason; return none)
    (h : close code reason conn = .error exn after) :
    conn.call method = { method, before := conn, result := .error exn, after } := by
  apply call_of_error
  rw [hperform, StateExcept.bind_error h]

/-- A call that closes is a call of `close`. -/
theorem closes_cases {method : WsCall} (h : method.closes = true) :
    method.opcode = .close ∧ ∃ code reason, perform method = do close code reason; return none := by
  cases method with
  | close code reason => exact ⟨rfl, code, reason, rfl⟩
  | «exit» => exact ⟨rfl, 1000, "", rfl⟩
  | send text => cases h
  | sendBytes data => cases h
  | recv => cases h

/-- Every call writes frames of its own opcode only. -/
theorem call_writesOwnFrames (conn : Connection) (method : WsCall) :
    (conn.call method).WritesOwnFrames := by
  cases hopen : conn.ep.ws.closed with
  | true =>
      apply writesOwnFrames_of_wrote 0 (fun _ => Nat.zero_le 1)
      rw [(call_closed hopen method).1]
      exact Wrote.nothing rfl rfl
  | false =>
      cases hcloses : method.closes with
      | true =>
          obtain ⟨hopcode, code, reason, hperform⟩ := closes_cases hcloses
          apply writesOwnFrames_of_wrote 1 (fun _ => le_refl 1)
          rw [after_close hperform, hopcode]
          rcases close_open hopen code reason with ⟨exn, hrefused⟩ | ⟨hwrote, _⟩
          · rw [hrefused]
            exact Wrote.nothing rfl rfl
          · exact hwrote
      | false =>
          cases method with
          | send text =>
              apply writesOwnFrames_of_wrote 1 (fun _ => le_refl 1)
              rw [after_onEndpoint (fun _ => none) rfl]
              have hwrote := (WsEndpoint.sendFrame_wrote .text (utf8Encode text) hopen).1
              exact hwrote.mono (fun _ => FrameWith.frameOf) (le_refl 1)
          | sendBytes data =>
              apply writesOwnFrames_of_wrote 1 (fun _ => le_refl 1)
              rw [after_onEndpoint (fun _ => none) rfl]
              have hwrote := (WsEndpoint.sendFrame_wrote .binary data hopen).1
              exact hwrote.mono (fun _ => FrameWith.frameOf) (le_refl 1)
          | recv =>
              obtain ⟨most, hwrote⟩ := WsEndpoint.recv_received conn.ep
              apply writesOwnFrames_of_wrote most (fun h => absurd rfl h)
              rw [after_onEndpoint some rfl]
              exact hwrote.mono (fun _ => PongFrame.frameOf) (le_refl most)
          | close code reason => cases hcloses
          | «exit» => cases hcloses

end Connection

end Priestly
