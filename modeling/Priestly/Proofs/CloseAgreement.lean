/-
Module: Priestly.Proofs.CloseAgreement
Layer: Proofs
Purpose: Both ends of a connection on a close. What one side writes up to its Close frame is a transcript of
  the messages it has sent; the other side returns these messages and then learns of the close. The Close
  frame is not held to the length of a control frame when it is written, only when it is read.
Imports: Priestly.Proofs.CallWrites, Priestly.Proofs.FrameGrammar, Priestly.Proofs.LenientText
Trusted boundary: none
Main exports: Transcript, run_transcript, recvMany_transcript, LearnsOfClose, close_agreement_iff
-/
import Priestly.Proofs.CallWrites
import Priestly.Proofs.FrameGrammar
import Priestly.Proofs.LenientText

namespace Priestly

open ByteCodec

/-! ### Transcripts -/

/-- The single frame that a message is sent in. -/
def WsMessage.frame (message : WsMessage) : WsFrame where
  fin := true
  opcode := message.gathered.opcode
  payload := message.gathered.data

/-- The frames carry the messages, one frame each; between them are pongs. -/
structure Transcript (frames : List WireFrame) (messages : List WsMessage) : Prop where
  data : (frames.filter fun frame => frame.content.isData).map WireFrame.content =
    messages.map WsMessage.frame
  pongs : ∀ frame ∈ frames, frame.content.isData = false → frame.content.opcode = .pong

namespace Transcript

variable {frames frames' : List WireFrame} {message : WsMessage} {messages messages' : List WsMessage}

theorem nil : Transcript [] [] := ⟨rfl, nofun⟩

theorem append (h : Transcript frames messages) (h' : Transcript frames' messages') :
    Transcript (frames ++ frames') (messages ++ messages') where
  data := by rw [List.filter_append, List.map_append, List.map_append, h.data, h'.data]
  pongs := by
    intro frame hframe
    rcases List.mem_append.mp hframe with hframe | hframe
    · exact h.pongs frame hframe
    · exact h'.pongs frame hframe

/-- Pongs carry no message. -/
theorem of_pongs (h : ∀ frame ∈ frames, frame.content.opcode = .pong) : Transcript frames [] where
  data := by
    have hnone : frames.filter (fun frame => frame.content.isData) = [] := by
      rw [List.filter_eq_nil_iff]
      intro frame hframe
      rw [WsFrame.isData, h frame hframe]
      decide
    rw [hnone]
    rfl
  pongs := fun frame hframe _ => h frame hframe

/-- A frame that carries a message. -/
theorem singleton {frame : WireFrame} (h : frame.content = message.frame) :
    Transcript [frame] [message] := by
  have hdata : frame.content.isData = true := by
    rw [h]
    cases message <;> rfl
  constructor
  · have hfilter : [frame].filter (fun frame => frame.content.isData) = [frame] := by
      rw [List.filter_cons_of_pos (by exact hdata), List.filter_nil]
    rw [hfilter, List.map_singleton, h]
    rfl
  · intro other hother hcontrol
    rw [List.mem_singleton.mp hother] at hcontrol
    exact absurd (hcontrol.symm.trans hdata) Bool.false_ne_true

/-- What is left when there is no message. -/
theorem pongs_of_nil (h : Transcript frames []) : ∀ frame ∈ frames, frame.content.opcode = .pong := by
  intro frame hframe
  have hnone := List.filter_eq_nil_iff.mp (List.map_eq_nil_iff.mp h.data) frame hframe
  exact h.pongs frame hframe (Bool.eq_false_of_not_eq_true hnone)

/-- Where the first message stands. -/
theorem split (h : Transcript frames (message :: messages)) :
    ∃ pongs frame unread, frames = pongs ++ frame :: unread ∧
      (∀ pong ∈ pongs, pong.content.opcode = .pong) ∧ frame.content = message.frame ∧
      Transcript unread messages := by
  obtain ⟨frame, later, hfilter, hframe, hlater⟩ := List.map_eq_cons_iff.mp h.data
  obtain ⟨pongs, unread, rfl, hpongs, _, hunread⟩ := List.filter_eq_cons_iff.mp hfilter
  refine ⟨pongs, frame, unread, rfl, ?_, hframe, ?_, ?_⟩
  · intro pong hpong
    apply h.pongs pong (List.mem_append_left _ hpong)
    exact Bool.eq_false_of_not_eq_true (hpongs pong hpong)
  · rw [hunread]
    exact hlater
  · intro other hother
    exact h.pongs other (List.mem_append_right _ (List.mem_cons_of_mem _ hother))

end Transcript

/-- What `encode_frame` writes is a frame with the payload, unless it is a control frame that is too
long. -/
theorem exists_encoded {opcode : Opcode} {payload bytes : Bytes} {mask : Option MaskingKey}
    (h : encodeFrame opcode payload mask = .ok bytes)
    (control : opcode.isControl = true → payload.length < 126) :
    ∃ frame : WireFrame, bytes = frame.bytes ∧ frame.content = { fin := true, opcode, payload } := by
  have hwire := encodeFrame_wire mask (size_of_encodeFrame h) control
  rw [h] at hwire
  exact ⟨_, Except.ok.inj hwire, rfl⟩

/-! ### What is written up to a close -/

/-- The message that a call has sent. -/
def ConnectionCall.sent (call : ConnectionCall) : Option WsMessage :=
  match call.method, call.result with
  | .send text, .ok _ => some (.text text)
  | .sendBytes data, .ok _ => some (.binary data)
  | _, _ => none

namespace Connection

/-- The state behind a sequence of calls. -/
def behind (conn : Connection) (methods : List WsCall) : Connection :=
  methods.foldl (fun conn method => (conn.call method).after) conn

/-- The messages that a sequence of calls has sent. -/
def sent (conn : Connection) (methods : List WsCall) : List WsMessage :=
  (conn.run methods).filterMap ConnectionCall.sent

/-- What a sequence of calls has written. -/
def wrote (conn : Connection) (methods : List WsCall) : Bytes :=
  (conn.behind methods).ep.sock.written.drop conn.ep.sock.written.length

/-- What has been written from one state to another, on a working socket, is a transcript. -/
def Transcribed (conn after : Connection) (messages : List WsMessage) : Prop :=
  after.ep.sock.Works ∧ ∃ frames, Transcript frames messages ∧
    after.ep.sock.written = conn.ep.sock.written ++ WireFrame.stream frames

variable {conn : Connection}

/-- Nothing happens. -/
theorem Transcribed.refl (hworks : conn.ep.sock.Works) : Transcribed conn conn [] :=
  ⟨hworks, [], Transcript.nil, (List.append_nil _).symm⟩

theorem Transcribed.trans {after after' : Connection} {messages messages' : List WsMessage}
    (h : Transcribed conn after messages) (h' : Transcribed after after' messages') :
    Transcribed conn after' (messages ++ messages') := by
  obtain ⟨_, frames, htranscript, hwritten⟩ := h
  obtain ⟨hworks, frames', htranscript', hwritten'⟩ := h'
  refine ⟨hworks, frames ++ frames', htranscript.append htranscript', ?_⟩
  rw [hwritten', hwritten, List.append_assoc, stream_append]

/-- A call that sends a message. -/
theorem call_send (message : WsMessage) {method : WsCall} (hopen : conn.ep.ws.closed = false)
    (hworks : conn.ep.sock.Works)
    (hperform : Connection.perform method = do
      Connection.onEndpoint (WsEndpoint.sendFrame message.gathered.opcode message.gathered.data)
      return none)
    (hsent : ∀ result, ConnectionCall.sent { method, before := conn, result := .ok none, after := result } =
      some message)
    (hrefused : ∀ exn result, ConnectionCall.sent
      { method, before := conn, result := .error exn, after := result } = none) :
    Transcribed conn (conn.call method).after (conn.call method).sent.toList := by
  rcases WsEndpoint.sendFrame_cases message.gathered.opcode message.gathered.data hopen with
    ⟨bytes, ep', hsend, _, _, ⟨mask, hencode⟩, hwritten, hfaults⟩ | ⟨exn, ep', hsend, _, _, hsame⟩
  · have hcall : perform method conn = .ok none { conn with ep := ep' } := by
      rw [hperform, StateExcept.bind_ok (onEndpoint_ok hsend)]
      rfl
    have hcontrol : message.gathered.opcode.isControl = true → message.gathered.data.length < 126 := by
      cases message <;> exact nofun
    obtain ⟨frame, rfl, hframe⟩ := exists_encoded hencode hcontrol
    rw [call_of_ok hcall, hsent]
    refine ⟨hworks.of_faults hfaults, [frame], Transcript.singleton hframe, ?_⟩
    rw [hwritten, WireFrame.stream, List.flatMap_singleton]
  · have hcall : perform method conn = .error exn { conn with ep := ep' } := by
      rw [hperform, StateExcept.bind_error (onEndpoint_error hsend)]
    rw [call_of_error hcall, hrefused, hsame hworks]
    exact Transcribed.refl hworks

/-- The bytes of pongs are frames. -/
theorem exists_pongs {frames : List Bytes} (h : ∀ frame ∈ frames, PongFrame frame) :
    ∃ pongs : List WireFrame, (∀ pong ∈ pongs, pong.content.opcode = .pong) ∧
      frames.flatten = WireFrame.stream pongs := by
  induction frames with
  | nil => exact ⟨[], nofun, rfl⟩
  | cons first frames ih =>
      obtain ⟨pongs, hpongs, hflatten⟩ := ih fun frame hframe => h frame (List.mem_cons_of_mem _ hframe)
      obtain ⟨payload, hshort, mask, hencode⟩ := h first List.mem_cons_self
      obtain ⟨frame, rfl, hframe⟩ := exists_encoded hencode (fun _ => hshort)
      refine ⟨frame :: pongs, ?_, ?_⟩
      · intro pong hpong
        rcases List.mem_cons.mp hpong with rfl | hpong
        · rw [hframe]
        · exact hpongs pong hpong
      · rw [List.flatten_cons, hflatten]
        rfl

/-- Every call that leaves the `WebSocket` open writes what it sends, and pongs at most besides. -/
theorem call_transcribed (hworks : conn.ep.sock.Works) {method : WsCall}
    (hstays : (conn.call method).after.ep.ws.closed = false) :
    Transcribed conn (conn.call method).after (conn.call method).sent.toList := by
  have hopen : conn.ep.ws.closed = false := by
    apply Bool.eq_false_of_not_eq_true
    intro hclosed
    rw [(call_closed hclosed method).1, hclosed] at hstays
    cases hstays
  cases hcloses : method.closes with
  | true =>
      -- A close that leaves it open is one that has refused its code.
      obtain ⟨_, code, reason, hperform⟩ := closes_cases hcloses
      rcases close_open hopen code reason with ⟨exn, hrefused⟩ | ⟨_, hclosed, _⟩
      · rw [call_close_error hperform hrefused]
        have hnone : ConnectionCall.sent { method, before := conn, result := .error exn, after := conn } =
            none := by
          cases method <;> rfl
        rw [hnone]
        exact Transcribed.refl hworks
      · rw [after_close hperform, hclosed] at hstays
        cases hstays
  | false =>
      cases method with
      | send text => exact call_send (.text text) hopen hworks rfl (fun _ => rfl) (fun _ _ => rfl)
      | sendBytes data => exact call_send (.binary data) hopen hworks rfl (fun _ => rfl) (fun _ _ => rfl)
      | recv =>
          obtain ⟨most, hwrote⟩ := WsEndpoint.recv_received conn.ep
          obtain ⟨frames, delta, hframes, _, _, hdelta, hwhole⟩ := hwrote.frames
          obtain ⟨pongs, hpongs, hflatten⟩ := exists_pongs hframes
          have hnone : (conn.call .recv).sent = none := by
            rw [ConnectionCall.sent, call_method]
          rw [hnone, after_onEndpoint some rfl]
          refine ⟨hwrote.works hworks, pongs, Transcript.of_pongs hpongs, ?_⟩
          rw [hdelta, hwhole hworks, hflatten]
      | close code reason => cases hcloses
      | «exit» => cases hcloses

/-- Calls on a closed `WebSocket` leave it closed. -/
theorem behind_closed (hclosed : conn.ep.ws.closed = true) (methods : List WsCall) :
    conn.behind methods = conn := by
  induction methods with
  | nil => rfl
  | cons method methods ih =>
      rw [behind, List.foldl_cons, (call_closed hclosed method).1]
      exact ih

/-- What calls write that leave the `WebSocket` open is a transcript of what they send. -/
theorem run_transcript (hworks : conn.ep.sock.Works) {methods : List WsCall}
    (hstays : (conn.behind methods).ep.ws.closed = false) :
    Transcribed conn (conn.behind methods) (conn.sent methods) := by
  induction methods generalizing conn with
  | nil => exact Transcribed.refl hworks
  | cons method methods ih =>
      have hbehind : conn.behind (method :: methods) = (conn.call method).after.behind methods := rfl
      have hsent : conn.sent (method :: methods) =
          (conn.call method).sent.toList ++ (conn.call method).after.sent methods := by
        rw [sent, run, List.filterMap_cons]
        cases (conn.call method).sent <;> rfl
      have hmiddle : (conn.call method).after.ep.ws.closed = false := by
        apply Bool.eq_false_of_not_eq_true
        intro hclosed
        rw [hbehind, behind_closed hclosed, hclosed] at hstays
        cases hstays
      have hcall := call_transcribed hworks hmiddle
      rw [hbehind, hsent]
      exact hcall.trans (ih hcall.1 hstays)

/-- A close on a working socket: its frame is written, or it is too long for one and nothing is. -/
theorem close_written (hopen : conn.ep.ws.closed = false) (hworks : conn.ep.sock.Works) {code : Nat}
    (hcode : code < 2 ^ 16) (reason : String) :
    (∃ bytes, FrameWith .close (toBytesBE 2 code ++ utf8Encode reason) bytes ∧
      (conn.call (.close code reason)).after.ep.sock.written = conn.ep.sock.written ++ bytes) ∨
    (126 ≤ (toBytesBE 2 code ++ utf8Encode reason).length ∧
      (conn.call (.close code reason)).after.ep.sock.written = conn.ep.sock.written) := by
  have hpack : structPackH code = .ok (toBytesBE 2 code) := by
    rw [structPackH, if_pos (by omega), Int.toNat_natCast]
  rw [after_close rfl, close, if_neg (by simp [hopen]), hpack]
  cases hencode : encodeFrame .close (toBytesBE 2 code ++ utf8Encode reason)
      (if conn.ep.ws.isClient then some (conn.ep.urandom conn.ep.drawn) else none) with
  | error exn =>
      right
      constructor
      · by_contra hshort
        have hwire := @encodeFrame_wire .close _
          (if conn.ep.ws.isClient then some (conn.ep.urandom conn.ep.drawn) else none)
          (Nat.lt_trans (Nat.lt_of_not_le hshort) (by decide)) (fun _ => Nat.lt_of_not_le hshort)
        rw [hencode] at hwire
        cases hwire
      · simp only [WsEndpoint.writeClose_error hencode]
        rfl
  | ok frame =>
      left
      refine ⟨frame, ⟨_, hencode⟩, ?_⟩
      have hwrite := WsEndpoint.writeClose_ok hencode
      rcases WsEndpoint.sendall_cases (show FrameOf .close frame from ⟨_, _, hencode⟩)
          (if conn.ep.ws.isClient then conn.ep.drawn + 1 else conn.ep.drawn) with
        ⟨ep', hsent, _, _, hwritten, _⟩ | ⟨text, ep', _, _, _, hfails⟩
      · simp only [WsEndpoint.ignoringOSError_ok (hwrite.trans hsent)]
        exact hwritten
      · exact absurd hworks hfails

end Connection

/-! ### What the peer reads -/

namespace WsEndpoint

variable {ep : WsEndpoint} {more : Bytes}

/-- The loop passes over pongs. -/
theorem recvLoop_pongs {pongs : List WireFrame} (hpongs : ∀ pong ∈ pongs, pong.content.opcode = .pong)
    (hrest : ep.sock.rest = WireFrame.stream pongs ++ more) {rounds : Nat}
    (hrounds : ep.sock.rest.length < rounds) (chunks : List Bytes) (messageOpcode : Option Opcode) :
    ∃ left ep', recvLoop rounds chunks messageOpcode ep = recvLoop (left + 1) chunks messageOpcode ep' ∧
      Advanced ep ep' [] more := by
  induction pongs generalizing ep rounds with
  | nil =>
      have hmore : ep.sock.rest = more := hrest
      refine ⟨rounds - 1, ep, ?_, hmore ▸ Advanced.of_left (Socket.Left.refl ep.sock)⟩
      rw [Nat.sub_add_cancel (Nat.one_le_of_lt hrounds)]
  | cons pong pongs ih =>
      have hopcode := hpongs pong List.mem_cons_self
      have hshort := length_control (by rw [hopcode]; rfl)
      have hstream : ep.sock.rest = pong.bytes ++ (WireFrame.stream pongs ++ more) := by
        rw [hrest, WireFrame.stream, List.flatMap_cons, List.append_assoc]
        rfl
      have hserved : pong.payload.length ≤ ep.sock.memory.largest :=
        le_trans (Nat.le_of_lt_succ hshort) ep.sock.memory.small
      obtain ⟨ep₁, hread, hadvanced⟩ := onSocket_readFrame hstream hserved
      have hfewer : ep₁.sock.rest.length < rounds - 1 := by
        have hsize := two_le_length_bytes pong
        rw [hstream, List.length_append] at hrounds
        rw [hadvanced.rest]
        omega
      obtain ⟨left, ep', hloop, hadvanced'⟩ := ih (fun other hother => hpongs other
        (List.mem_cons_of_mem _ hother)) hadvanced.rest hfewer
      refine ⟨left, ep', ?_, hadvanced.trans hadvanced'⟩
      rw [← hloop, ← Nat.sub_add_cancel (Nat.one_le_of_lt hrounds), recvLoop, StateExcept.bind_ok hread]
      simp only [handleFrame, hopcode, Nat.add_sub_cancel]

/-- A call passes over pongs. -/
theorem recv_pongs {pongs : List WireFrame} (hopen : ep.ws.closed = false)
    (hpongs : ∀ pong ∈ pongs, pong.content.opcode = .pong)
    (hrest : ep.sock.rest = WireFrame.stream pongs ++ more) :
    ∃ left ep', recv ep = recvLoop (left + 1) [] none ep' ∧ Advanced ep ep' [] more := by
  rw [recv, StateExcept.get_bind, if_neg (by simp [hopen])]
  exact recvLoop_pongs hpongs hrest (Nat.lt_succ_self _) [] none

/-- The single frame of a message completes it. -/
theorem handleFrame_frame (message : WsMessage) {again : List Bytes → Option Opcode → WsM WsMessage} :
    handleFrame again [] none message.frame ep = .ok message ep := by
  have hdata : message.frame.isData = true := by
    cases message <;> rfl
  have hopcode : messageOpcodeOf message.frame.opcode none = .ok message.gathered.opcode := by
    cases message <;> rfl
  have hflatten : ([] ++ [message.frame.payload]).flatten = message.gathered.data := by
    rw [List.nil_append, List.flatten_singleton]
    rfl
  rw [handleFrame_data _ _ _ hdata, hopcode, hflatten]
  exact assembled_gathered message

/-- A call returns the next message of a transcript, if the process can hold it. -/
theorem recv_message {frames : List WireFrame} {message : WsMessage} {messages : List WsMessage}
    (hopen : ep.ws.closed = false) (h : Transcript frames (message :: messages))
    (hrest : ep.sock.rest = WireFrame.stream frames ++ more) :
    (message.gathered.data.length ≤ ep.sock.memory.largest → ∃ unread ep', recv ep = .ok message ep' ∧
      Advanced ep ep' [] (WireFrame.stream unread ++ more) ∧ Transcript unread messages) ∧
    (∀ returned ep', recv ep = .ok returned ep' →
      message.gathered.data.length ≤ ep.sock.memory.largest) := by
  obtain ⟨pongs, frame, unread, rfl, hpongs, hframe, hunread⟩ := h.split
  have hsplit : ep.sock.rest = WireFrame.stream pongs ++ (frame.bytes ++ (WireFrame.stream unread ++ more)) := by
    rw [hrest, stream_append, List.append_assoc, WireFrame.stream, WireFrame.stream, List.flatMap_cons,
      List.append_assoc]
    rfl
  obtain ⟨left, ep₁, hrecv, hadvanced⟩ := recv_pongs hopen hpongs hsplit
  have hpayload : frame.payload = message.gathered.data := congrArg WsFrame.payload hframe
  rw [← hpayload, ← hadvanced.memory]
  constructor
  · intro hserved
    obtain ⟨ep₂, hread, hadvanced'⟩ := onSocket_readFrame hadvanced.rest hserved
    refine ⟨unread, ep₂, ?_, hadvanced.trans hadvanced', hunread⟩
    rw [hrecv, recvLoop, StateExcept.bind_ok hread, hframe]
    exact handleFrame_frame message
  · intro returned ep' hreturned
    by_contra hlarge
    have hheader : ep₁.sock.rest = frame.header.bytes ++ (frame.body ++ (WireFrame.stream unread ++ more)) := by
      rw [hadvanced.rest, WireFrame.bytes, List.append_assoc]
    rw [frame.complete] at hlarge
    obtain ⟨sock', hread⟩ := readFrame_oversized hheader (Nat.lt_of_not_le hlarge)
    rw [hrecv, recvLoop, StateExcept.bind_error (onSocket_error hread)] at hreturned
    cases hreturned

/-- So many calls return all messages of a transcript, and leave pongs; and they return only if the
process can hold each message. -/
theorem recvMany_transcript {frames : List WireFrame} {messages : List WsMessage}
    (hopen : ep.ws.closed = false) (h : Transcript frames messages)
    (hrest : ep.sock.rest = WireFrame.stream frames ++ more) :
    ((∀ message ∈ messages, message.gathered.data.length ≤ ep.sock.memory.largest) →
      ∃ pongs ep', recvMany messages.length ep = .ok messages ep' ∧
        Advanced ep ep' [] (WireFrame.stream pongs ++ more) ∧
        ∀ pong ∈ pongs, pong.content.opcode = .pong) ∧
    (∀ returned ep', recvMany messages.length ep = .ok returned ep' →
      ∀ message ∈ messages, message.gathered.data.length ≤ ep.sock.memory.largest) := by
  induction messages generalizing ep frames with
  | nil =>
      constructor
      · intro _
        refine ⟨frames, ep, rfl, ?_, h.pongs_of_nil⟩
        exact hrest ▸ Advanced.of_left (Socket.Left.refl ep.sock)
      · exact fun _ _ _ => nofun
  | cons message messages ih =>
      obtain ⟨hserved, hreads⟩ := recv_message hopen h hrest
      constructor
      · intro hall
        obtain ⟨unread, ep₁, hrecv, hadvanced, hunread⟩ := hserved (hall message List.mem_cons_self)
        have hall₁ : ∀ other ∈ messages, other.gathered.data.length ≤ ep₁.sock.memory.largest := by
          intro other hother
          rw [hadvanced.memory]
          exact hall other (List.mem_cons_of_mem _ hother)
        obtain ⟨pongs, ep₂, hrecvs, hadvanced', hpongs⟩ :=
          (ih (hadvanced.ws ▸ hopen) hunread hadvanced.rest).1 hall₁
        refine ⟨pongs, ep₂, ?_, hadvanced.trans hadvanced', hpongs⟩
        rw [List.length_cons, recvMany, StateExcept.bind_ok hrecv, StateExcept.bind_ok hrecvs]
        rfl
      · intro returned ep' hreturned other hother
        rw [List.length_cons, recvMany] at hreturned
        obtain ⟨first, ep₁, hfirst, hreturned⟩ := StateExcept.bind_eq_ok hreturned
        have hsize := hreads first ep₁ hfirst
        rcases List.mem_cons.mp hother with rfl | hother
        · exact hsize
        · obtain ⟨unread, ep₁', hrecv, hadvanced, hunread⟩ := hserved hsize
          rw [hrecv] at hfirst
          cases hfirst
          obtain ⟨later, ep₂, hlater, _⟩ := StateExcept.bind_eq_ok hreturned
          rw [← hadvanced.memory]
          exact (ih (hadvanced.ws ▸ hopen) hunread hadvanced.rest).2 later ep₂ hlater other hother

/-- The second byte of a payload that is too long for a control frame. -/
theorem parseHeader_close (masked : Bool) {length : Nat} (h : 126 ≤ length) :
    parseHeader (0x80 ||| Opcode.close.code) (secondByte masked ((LengthForm.minimal length).code length)) =
      .error (.protocolError "control frame payload too large") := by
  rw [LengthForm.minimal, if_neg (by omega)]
  by_cases hmedium : length < 65536
  · rw [if_pos hmedium, LengthForm.code]
    cases masked <;> decide
  · rw [if_neg hmedium, LengthForm.code]
    cases masked <;> decide

/-- A Close frame that is too long starts with two bytes that `read_frame` refuses. -/
theorem encodeFrame_close_long {payload bytes : Bytes} {mask : Option MaskingKey} (h : 126 ≤ payload.length)
    (hencode : encodeFrame .close payload mask = .ok bytes) :
    ∃ b0 b1 rest, bytes = b0 :: b1 :: rest ∧
      parseHeader b0 b1 = .error (.protocolError "control frame payload too large") := by
  have hsize := size_of_encodeFrame hencode
  cases mask with
  | none =>
      have hheader := lengthHeader_minimal false hsize
      simp only [Bool.false_eq_true, if_false] at hheader
      rw [encodeFrame, hheader] at hencode
      exact ⟨_, _, _, (Except.ok.inj hencode).symm, parseHeader_close false h⟩
  | some key =>
      have hheader := lengthHeader_minimal true hsize
      simp only [if_true] at hheader
      rw [encodeFrame, hheader] at hencode
      exact ⟨_, _, _, (Except.ok.inj hencode).symm, parseHeader_close true h⟩

/-- What `_parse_close` finds in the payload that `close` builds. -/
theorem parseClose_payload {code : Nat} (hcode : code < 2 ^ 16) (reason : String) :
    parseClose (toBytesBE 2 code ++ utf8Encode reason) = (some code, reason) := by
  have htake : (toBytesBE 2 code ++ utf8Encode reason).take 2 = toBytesBE 2 code :=
    List.take_left' (length_toBytesBE 2 code)
  have hdrop : (toBytesBE 2 code ++ utf8Encode reason).drop 2 = utf8Encode reason :=
    List.drop_left' (length_toBytesBE 2 code)
  rw [parseClose, if_pos (by rw [List.length_append, length_toBytesBE]; omega), htake, hdrop,
    ofBytesBE_toBytesBE_of_lt (Nat.lt_of_lt_of_eq hcode (by decide)), utf8DecodeReplace_utf8Encode]

/-- Behind pongs, the close of the other side is learnt of exactly when its frame is short enough. -/
theorem recv_closing {pongs : List WireFrame} (hopen : ep.ws.closed = false)
    (hpongs : ∀ pong ∈ pongs, pong.content.opcode = .pong) {code : Nat} (hcode : code < 2 ^ 16)
    {reason : String} {closing : Bytes}
    (hclosing : FrameWith .close (toBytesBE 2 code ++ utf8Encode reason) closing ∨
      (126 ≤ (toBytesBE 2 code ++ utf8Encode reason).length ∧ closing = []))
    (hrest : ep.sock.rest = WireFrame.stream pongs ++ closing) :
    (∃ ep', recv ep = .error (.connectionClosed (some code) reason) ep') ↔
      (toBytesBE 2 code ++ utf8Encode reason).length < 126 := by
  obtain ⟨left, ep₁, hrecv, hadvanced⟩ := recv_pongs hopen hpongs hrest
  have hstream := hadvanced.rest
  rw [hrecv]
  rcases hclosing with ⟨mask, hencode⟩ | ⟨hlong, rfl⟩
  · by_cases hshort : (toBytesBE 2 code ++ utf8Encode reason).length < 126
    · obtain ⟨frame, rfl, hframe⟩ := exists_encoded hencode (fun _ => hshort)
      have hserved : frame.payload.length ≤ ep₁.sock.memory.largest := by
        have hpayload : frame.payload = toBytesBE 2 code ++ utf8Encode reason :=
          congrArg WsFrame.payload hframe
        rw [hpayload]
        exact le_trans (Nat.le_of_lt_succ hshort) ep₁.sock.memory.small
      obtain ⟨ep₂, hread, _⟩ := onSocket_readFrame (hstream.trans (List.append_nil _).symm) hserved
      refine ⟨fun _ => hshort, fun _ => ?_⟩
      rw [recvLoop, StateExcept.bind_ok hread, hframe]
      simp only [handleFrame, parseClose_payload hcode]
      exact ⟨_, rfl⟩
    · obtain ⟨b0, b1, rest, rfl, hparse⟩ := encodeFrame_close_long (Nat.le_of_not_lt hshort) hencode
      obtain ⟨sock', hread⟩ := readFrame_refused hstream hparse
      refine ⟨?_, fun h => absurd h hshort⟩
      rintro ⟨ep', hlearnt⟩
      rw [recvLoop, StateExcept.bind_error (onSocket_error hread)] at hlearnt
      cases hlearnt
  · refine ⟨?_, fun h => absurd h (Nat.not_lt.mpr hlong)⟩
    rintro ⟨ep', hlearnt⟩
    obtain ⟨_, _, hend, _⟩ := recvLoop_end [] none hstream (Nat.succ_pos left)
    rw [hend] at hlearnt
    cases hlearnt

end WsEndpoint

/-! ### The agreement -/

/-- The peer returns the messages, and then learns of the close with its code and its reason. -/
def LearnsOfClose (peer : WsEndpoint) (messages : List WsMessage) (code : Nat) (reason : String) : Prop :=
  ∃ peer', WsEndpoint.recvMany messages.length peer = .ok messages peer' ∧
    ∃ peer'', WsEndpoint.recv peer' = .error (.connectionClosed (some code) reason) peer''

/-- What is written up to and with a close. -/
theorem Connection.wrote_close {conn : Connection} (hworks : conn.ep.sock.Works) {methods : List WsCall}
    (hopen : (conn.behind methods).ep.ws.closed = false) {code : Nat} (hcode : code < 2 ^ 16)
    (reason : String) :
    ∃ frames closing, Transcript frames (conn.sent methods) ∧
      (FrameWith .close (toBytesBE 2 code ++ utf8Encode reason) closing ∨
        (126 ≤ (toBytesBE 2 code ++ utf8Encode reason).length ∧ closing = [])) ∧
      conn.wrote (methods ++ [.close code reason]) = WireFrame.stream frames ++ closing := by
  obtain ⟨hworks', frames, htranscript, hwritten⟩ := run_transcript hworks hopen
  have hbehind : conn.behind (methods ++ [.close code reason]) =
      ((conn.behind methods).call (.close code reason)).after := by
    rw [behind, List.foldl_append]
    rfl
  refine ⟨frames, ?_⟩
  rw [wrote, hbehind]
  rcases close_written hopen hworks' hcode reason with ⟨closing, hframe, hclose⟩ | ⟨hlong, hclose⟩
  · refine ⟨closing, htranscript, .inl hframe, ?_⟩
    rw [hclose, hwritten, List.append_assoc, List.drop_left]
  · refine ⟨[], htranscript, .inr ⟨hlong, rfl⟩, ?_⟩
    rw [hclose, hwritten, List.drop_left, List.append_nil]

/-- For every side of a connection, whatever calls it has made before on a working socket, and every peer to
which what it has written arrives, in any pieces: behind a `close(code, reason)` on the open connection the
peer returns the messages that were sent and then raises `ConnectionClosed` with that code and that reason,
exactly when its process can hold each of the messages and the reason takes at most 123 bytes. -/
theorem close_agreement_iff (conn : Connection) (methods : List WsCall) (code : Nat) (reason : String)
    (peer : WsEndpoint) (hworks : conn.ep.sock.Works)
    (hopen : (conn.behind methods).ep.ws.closed = false) (hcode : code < 2 ^ 16)
    (hpeer : peer.ws.closed = false)
    (harrived : peer.sock.rest = conn.wrote (methods ++ [.close code reason])) :
    LearnsOfClose peer (conn.sent methods) code reason ↔
      (∀ message ∈ conn.sent methods, message.gathered.data.length ≤ peer.sock.memory.largest) ∧
        (utf8Encode reason).length ≤ 123 := by
  obtain ⟨frames, closing, htranscript, hclosing, hwrote⟩ := Connection.wrote_close hworks hopen hcode reason
  obtain ⟨hreturns, hserved⟩ := WsEndpoint.recvMany_transcript hpeer htranscript (harrived.trans hwrote)
  have hlength : (toBytesBE 2 code ++ utf8Encode reason).length < 126 ↔ (utf8Encode reason).length ≤ 123 := by
    rw [List.length_append, length_toBytesBE]
    omega
  constructor
  · rintro ⟨peer', hmany, hlearns⟩
    have hall := hserved _ _ hmany
    obtain ⟨pongs, peer₁, hmany', hadvanced, hpongs⟩ := hreturns hall
    rw [hmany'] at hmany
    cases hmany
    have hshort := (WsEndpoint.recv_closing (hadvanced.ws ▸ hpeer) hpongs hcode hclosing hadvanced.rest).mp
      hlearns
    exact ⟨hall, hlength.mp hshort⟩
  · rintro ⟨hall, hshort⟩
    obtain ⟨pongs, peer₁, hmany, hadvanced, hpongs⟩ := hreturns hall
    refine ⟨peer₁, hmany, ?_⟩
    apply (WsEndpoint.recv_closing (hadvanced.ws ▸ hpeer) hpongs hcode hclosing hadvanced.rest).mpr
    exact hlength.mpr hshort

/-- A client that has just connected. -/
def freshClient : Connection where
  ep := { bytesEndpoint [] with ws := { isClient := true, closed := false } }
  socketClosed := false

/-- A server to which bytes have arrived. -/
def serverReading (bytes : Bytes) : WsEndpoint := { bytesEndpoint [] with sock := .arriving .gibibyte bytes }

/-- A greeting and a goodbye arrive. -/
theorem close_agreement_goodbye : LearnsOfClose
    (serverReading (freshClient.wrote ([.send "hi"] ++ [.close 1000 "bye"]))) [.text "hi"] 1000 "bye" := by
  have hsent : freshClient.sent [.send "hi"] = [.text "hi"] := by decide
  rw [← hsent]
  apply (close_agreement_iff freshClient [.send "hi"] 1000 "bye" _ ?_ ?_ ?_ rfl ?_).mpr
  · rw [hsent]
    decide
  · exact nofun
  · decide
  · decide
  · exact Socket.rest_arriving _ _

/-- A reason that is one byte too long: the peer raises a `ProtocolError`. -/
theorem long_reason_refused :
    ¬ LearnsOfClose (serverReading (freshClient.wrote [.close 1000 (.ofList (List.replicate 124 'a'))])) []
      1000 (.ofList (List.replicate 124 'a')) := by
  have hraised : (WsEndpoint.call (serverReading (freshClient.wrote
      [.close 1000 (.ofList (List.replicate 124 'a'))]))).result =
        .error (.protocolError "control frame payload too large") := by
    decide +kernel
  rintro ⟨peer', hmany, peer'', hrecv⟩
  cases hmany
  rw [WsEndpoint.call, hrecv] at hraised
  cases hraised

end Priestly
