/-
Module: Priestly.Proofs.MessageGrammar
Layer: Proofs
Purpose: Successive calls of `recv` return the messages that the frames carry, however they are split into
  fragments and whatever pings and pongs stand between them; and they keep the message grammar exactly
  when no text or binary frame arrives inside a fragmented message.
Imports: Priestly.Proofs.Reassembly
Trusted boundary: none
Main exports: messages_reassemble, GrammarKept, CallOver, call_over, grammar_kept_iff
-/
import Priestly.Proofs.Reassembly

namespace Priestly

open ByteCodec

namespace WsEndpoint

variable {ep ep' : WsEndpoint}

/-! ### Messages come back whole -/

/-- A message is returned under its own type. -/
theorem assembled_gathered (message : WsMessage) :
    assembled message.gathered.opcode message.gathered.data ep = .ok message ep := by
  cases message with
  | text content =>
      rw [WsMessage.gathered, assembled, if_pos rfl, utf8Decode_utf8Encode]
      rfl
  | binary data => rfl

/-- Pings are answered in the order of the frames. -/
theorem pingPayloads_append (first second : List WireFrame) :
    pingPayloads (first ++ second) = pingPayloads first ++ pingPayloads second := by
  rw [pingPayloads, List.filter_append, List.map_append]
  rfl

/-- One call returns the first message that the frames carry. -/
theorem recv_carries {frames : List WireFrame} {message : WsMessage} {messages : List WsMessage}
    {more : Bytes} (hopen : ep.ws.closed = false) (hwritable : ep.sock.faults = [])
    (hrest : ep.sock.rest = WireFrame.stream frames ++ more)
    (hserved : ∀ frame ∈ frames, frame.payload.length ≤ ep.sock.memory.largest)
    (hcarries : Carries (frames.map WireFrame.content) (message :: messages)) :
    ∃ read unread ep', frames = read ++ unread ∧ recv ep = .ok message ep' ∧
      Advanced ep ep' (pingPayloads read) (WireFrame.stream unread ++ more) ∧
      Carries (unread.map WireFrame.content) messages := by
  obtain ⟨_, unread, _, hassemble, hcarries'⟩ := assemble_carries hcarries
  rcases recv_assemble frames hopen hrest hserved with
    ⟨_, hfailing, _, _, _, _, _⟩ | ⟨read, ep', hsplit, hadvanced, hends⟩
  · rw [hwritable] at hfailing
    cases hfailing
  · rw [hassemble] at hsplit hadvanced hends
    exact ⟨read, unread, ep', hsplit, hends.trans (assembled_gathered message), hadvanced, hcarries'⟩

/-- So many calls return all of them. -/
theorem recvMany_carries {frames : List WireFrame} {messages : List WsMessage} {more : Bytes}
    (hopen : ep.ws.closed = false) (hwritable : ep.sock.faults = [])
    (hrest : ep.sock.rest = WireFrame.stream frames ++ more)
    (hserved : ∀ frame ∈ frames, frame.payload.length ≤ ep.sock.memory.largest)
    (hcarries : Carries (frames.map WireFrame.content) messages) :
    ∃ read unread ep', frames = read ++ unread ∧ recvMany messages.length ep = .ok messages ep' ∧
      Advanced ep ep' (pingPayloads read) (WireFrame.stream unread ++ more) ∧
      ∀ frame ∈ unread, frame.content.isData = false := by
  induction messages generalizing ep frames with
  | nil =>
      refine ⟨[], frames, ep, rfl, rfl, ⟨rfl, rfl, rfl, rfl, ?_, hrest⟩, ?_⟩
      · exact ⟨[], (List.append_nil _).symm, rfl, by simp⟩
      · obtain ⟨parts, hparts, hdata⟩ := hcarries.fragments
        cases hparts
        rw [List.flatten_nil, List.filter_eq_nil_iff] at hdata
        intro frame hframe
        exact Bool.eq_false_of_not_eq_true (hdata _ (List.mem_map_of_mem hframe))
  | cons message messages ih =>
      obtain ⟨read, unread, ep₁, rfl, hrecv, hadvanced, hcarries'⟩ :=
        recv_carries hopen hwritable hrest hserved hcarries
      have hwritable₁ : ep₁.sock.faults = [] := by
        rw [hadvanced.faults, hwritable, List.drop_nil]
      have hserved₁ : ∀ frame ∈ unread, frame.payload.length ≤ ep₁.sock.memory.largest := by
        intro frame hframe
        rw [hadvanced.memory]
        exact hserved frame (List.mem_append_right _ hframe)
      obtain ⟨read', unread', ep₂, rfl, hrecvs, hadvanced', hcontrol⟩ :=
        ih (hadvanced.ws ▸ hopen) hwritable₁ hadvanced.rest hserved₁ hcarries'
      refine ⟨read ++ read', unread', ep₂, (List.append_assoc ..).symm, ?_, ?_, hcontrol⟩
      · rw [List.length_cons, recvMany, StateExcept.bind_ok hrecv, StateExcept.bind_ok hrecvs]
        rfl
      · rw [pingPayloads_append]
        exact hadvanced.trans hadvanced'

end WsEndpoint

/-- What `send` or `send_bytes` hands to the socket for a message. -/
def WebSocket.sendMessage (ws : WebSocket) (freshKey : MaskingKey) : WsMessage → Except Exn Bytes
  | .text content => ws.send freshKey content
  | .binary data => ws.sendBytes freshKey data

/-- A payload that `encode_frame` takes has a length that a header can express. -/
theorem size_of_encodeFrame {opcode : Opcode} {payload bytes : Bytes} {mask : Option MaskingKey}
    (h : encodeFrame opcode payload mask = .ok bytes) : payload.length < 2 ^ 64 := by
  by_contra hlarge
  have hheader : ∀ maskBit, lengthHeader maskBit payload.length =
      .error (.structError "int too large to convert") := by
    intro maskBit
    rw [lengthHeader, if_neg (by omega), if_neg (by omega), structPackQ, if_neg (by omega)]
    rfl
  cases mask with
  | none =>
      rw [encodeFrame, hheader] at h
      cases h
  | some key =>
      rw [encodeFrame, hheader] at h
      cases h

/-- The single frame that a message is sent in is a fragmentation of it. -/
theorem isFragmentation_sendMessage {ws : WebSocket} {freshKey : MaskingKey} {message : WsMessage}
    {bytes : Bytes} (h : ws.sendMessage freshKey message = .ok bytes) :
    ∃ frame : WireFrame, bytes = frame.bytes ∧ IsFragmentation message [frame.content] := by
  have hsend : ws.sendFrame freshKey message.gathered.opcode message.gathered.data = .ok bytes := by
    cases message with
    | text content => exact h
    | binary data => exact h
  rw [WebSocket.sendFrame] at hsend
  by_cases hclosed : ws.closed = true
  · rw [if_pos hclosed] at hsend
    cases hsend
  · rw [if_neg hclosed] at hsend
    have hcontrol : message.gathered.opcode.isControl = true → message.gathered.data.length < 126 := by
      intro hcontrol
      cases message with
      | text content => cases hcontrol
      | binary data => cases hcontrol
    have hwire := encodeFrame_wire (if ws.isClient then some freshKey else none)
      (size_of_encodeFrame hsend) hcontrol
    rw [hsend] at hwire
    refine ⟨_, Except.ok.inj hwire, ⟨0, rfl⟩, ⟨0, rfl⟩, ?_⟩
    exact List.append_nil _

/-- Reassembly does not depend on fragmentation, control frames, masks or pieces. Let the unread stream of
an open `WebSocket` consist of frames that carry messages, in any forms of the length and with any masking
keys, followed by anything, and cut into pieces in any way; no write fails, and the socket serves reads as
long as the payloads. Then as many calls of `recv` as there are messages return the messages, in order and
with their types; they leave pings and pongs at most; and for each ping they read they write one pong,
in order and with the payload of the ping. The single frames of `send` and `send_bytes` are such frames. -/
theorem messages_reassemble (ep : WsEndpoint) (messages : List WsMessage) (frames : List WireFrame)
    (more : Bytes) (hopen : ep.ws.closed = false) (hwritable : ep.sock.faults = [])
    (hrest : ep.sock.rest = WireFrame.stream frames ++ more)
    (hserved : ∀ frame ∈ frames, frame.payload.length ≤ ep.sock.memory.largest)
    (hcarries : Carries (frames.map WireFrame.content) messages) :
    (∃ read unread ep' pongs, frames = read ++ unread ∧
      (∀ frame ∈ unread, frame.content.isData = false) ∧
      WsEndpoint.recvMany messages.length ep = .ok messages ep' ∧
      ep'.sock.rest = WireFrame.stream unread ++ more ∧
      ep'.sock.written = ep.sock.written ++ WireFrame.stream pongs ∧
      pongs.map WireFrame.content = (WsEndpoint.pingPayloads read).map WsEndpoint.pongOf ∧
      ∀ pong ∈ pongs, pong.header.mask.isSome = ep.ws.isClient) ∧
    ∀ (ws : WebSocket) (freshKey : MaskingKey) (message : WsMessage) (bytes : Bytes),
      ws.sendMessage freshKey message = .ok bytes →
      ∃ frame : WireFrame, bytes = frame.bytes ∧ IsFragmentation message [frame.content] := by
  refine ⟨?_, fun ws freshKey message bytes => isFragmentation_sendMessage⟩
  obtain ⟨read, unread, ep', hsplit, hrecv, hadvanced, hcontrol⟩ :=
    WsEndpoint.recvMany_carries hopen hwritable hrest hserved hcarries
  obtain ⟨pongs, hwritten, hcontent, hmask⟩ := hadvanced.pongs
  exact ⟨read, unread, ep', pongs, hsplit, hcontrol, hrecv, hadvanced.rest, hwritten, hcontent, hmask⟩

/-- A masked text frame that is not final, with the payload `H`. -/
def fragmentStart : WireFrame where
  header := {
    fin := false, opcode := .text, form := .short, length := 1, mask := some ⟨#[1, 2, 3, 4], rfl⟩
    fits := by decide, control := by decide }
  payload := [72]
  complete := rfl

/-- A ping with the payload `p`. -/
def fragmentPing : WireFrame where
  header := {
    fin := true, opcode := .ping, form := .short, length := 1, mask := none
    fits := by decide, control := by decide }
  payload := [112]
  complete := rfl

theorem LengthForm.medium_fits_one : LengthForm.medium.Fits 1 := by decide

/-- A final continuation frame with the payload `i` and two bytes of length. -/
def fragmentEnd : WireFrame where
  header := {
    fin := true, opcode := .cont, form := .medium, length := 1, mask := none
    fits := LengthForm.medium_fits_one, control := by decide }
  payload := [105]
  complete := rfl

/-- A server whose unread stream is the bytes, one to a piece. -/
def bytesEndpoint (bytes : Bytes) : WsEndpoint where
  ws := { isClient := false, closed := false }
  sock := {
    memory := .gibibyte
    pieces := bytes.map fun b => { head := b, tail := [] }
    ending := none
    faults := []
    written := [] }
  urandom _ := Vector.replicate 4 0
  drawn := 0

/-- A text in two frames with a ping between them. -/
theorem messages_reassemble_sample :
    ∃ ep', WsEndpoint.recvMany 1 (bytesEndpoint (WireFrame.stream [fragmentStart, fragmentPing, fragmentEnd])) =
      .ok [.text "Hi"] ep' := by
  have hcarries : Carries ([fragmentStart, fragmentPing, fragmentEnd].map WireFrame.content) [.text "Hi"] := by
    refine ⟨⟨[[fragmentStart.content, fragmentEnd.content]], .cons ⟨⟨1, ?_⟩, ⟨1, ?_⟩, ?_⟩ .nil, ?_⟩, ?_⟩
    all_goals decide
  obtain ⟨⟨_, _, ep', _, _, _, hrecv, _⟩, _⟩ := messages_reassemble
    (bytesEndpoint (WireFrame.stream [fragmentStart, fragmentPing, fragmentEnd])) [.text "Hi"]
    [fragmentStart, fragmentPing, fragmentEnd] [] rfl rfl (by decide) (by decide) hcarries
  exact ⟨ep', hrecv⟩

/-! ### The grammar of what a call reads -/

/-- A call keeps the message grammar with the frames it has read: it returns a message only if their data
frames are a fragmentation of it, and it raises a `ProtocolError` when one of them is out of place. -/
structure KeepsGrammar (call : RecvCall) (read : List WireFrame) : Prop where
  consumed : call.before.sock.rest = WireFrame.stream read ++ call.after.sock.rest
  message : ∀ message, call.result = .ok message →
    IsFragmentation message ((read.map WireFrame.content).filter WsFrame.isData)
  violation : Interrupted (read.map WireFrame.content) ∨ Orphaned (read.map WireFrame.content) →
    ∃ text, call.result = .error (.protocolError text)

/-- The calls read the frames one part after the other, and each call keeps the grammar with its part. -/
def CallsKeepGrammar (frames : List WireFrame) (calls : List RecvCall) : Prop :=
  ∃ parts unread, frames = parts.flatten ++ unread ∧ List.Forall₂ KeepsGrammar calls parts

/-- Whatever is done with a sequence of frames, every call of `recv` keeps the grammar. -/
def GrammarKept (memory : Memory) (frames : List WireFrame) : Prop :=
  ∀ (ep : WsEndpoint) (calls : Nat), ep.sock.memory = memory → ep.ws.closed = false →
    ep.sock.rest = WireFrame.stream frames → CallsKeepGrammar frames (recvCalls calls ep)

/-- No continuation frame is out of place among frames that a call passes. -/
theorem Passes.not_orphaned {pending : Option Gathered} {frames : List WireFrame}
    (h : Passes none frames pending) : ¬ Orphaned (frames.map WireFrame.content) := by
  rintro ⟨before, frame, after, hsplit, _, hopen, hcont⟩
  obtain ⟨first, second, rfl, rfl, hsecond⟩ := List.map_eq_append_iff.mp hsplit
  obtain ⟨orphan, others, rfl, rfl, _⟩ := List.map_eq_cons_iff.mp hsecond
  obtain ⟨between, hfirst, hlast⟩ := h.of_append
  have hnone := hfirst.openAfter
  rw [Option.isSome_none, hopen] at hnone
  cases hlast with
  | cons honward _ =>
      have hdata : orphan.content.isData = true := by rw [WsFrame.isData, hcont]; rfl
      obtain ⟨_, _, _, ⟨_, hpending⟩ | ⟨hown, htype⟩⟩ := honward.data hdata
      · cases between with
        | none => cases hpending
        | some message => cases hnone
      · rw [← hown, hcont] at htype
        rcases htype with htype | htype
        · cases htype
        · cases htype

/-- A frame that is no continuation ends a call behind frames that pass without being out of place. -/
theorem Passes.not_orphaned_concat {pending : Option Gathered} {passed : List WireFrame}
    {last : WireFrame} (h : Passes none passed pending)
    (hlast : last.content.opcode = .cont → pending.isSome = true) :
    ¬ Orphaned ((passed ++ [last]).map WireFrame.content) := by
  rintro ⟨before, frame, after, hsplit, hclose, hopen, hcont⟩
  rw [List.map_append, List.map_singleton] at hsplit
  rcases List.eq_nil_or_concat after with rfl | ⟨after, end', rfl⟩
  · obtain ⟨rfl, hframe⟩ := List.append_inj' hsplit rfl
    obtain rfl := (List.cons.inj hframe).1
    have hsome := hlast hcont
    rw [← h.openAfter, Option.isSome_none, hopen] at hsome
    cases hsome
  · rw [List.concat_eq_append, ← List.cons_append, ← List.append_assoc] at hsplit
    obtain ⟨hpassed, _⟩ := List.append_inj' hsplit rfl
    exact h.not_orphaned ⟨before, frame, after, hpassed, hclose, hopen, hcont⟩

/-- A call returns its message or raises. -/
theorem call_of_ok {ep ep' : WsEndpoint} {message : WsMessage}
    (h : WsEndpoint.recv ep = .ok message ep') : ep.call = ⟨ep, .ok message, ep'⟩ := by
  rw [WsEndpoint.call, h]

theorem call_of_error {ep ep' : WsEndpoint} {exn : TransportExn}
    (h : WsEndpoint.recv ep = .error exn ep') : ep.call = ⟨ep, .error exn, ep'⟩ := by
  rw [WsEndpoint.call, h]

@[simp] theorem call_before (ep : WsEndpoint) : ep.call.before = ep := by
  rw [WsEndpoint.call]
  cases WsEndpoint.recv ep with
  | ok message after => rfl
  | error exn after => rfl

/-- At the end of the stream the loop raises. -/
theorem recvLoop_end {ep : WsEndpoint} {rounds : Nat} (chunks : List Bytes)
    (messageOpcode : Option Opcode) (hend : ep.sock.rest = []) (hrounds : 0 < rounds) :
    ∃ reason ep', WsEndpoint.recvLoop rounds chunks messageOpcode ep =
      .error (.connectionClosed none reason) ep' ∧ ep'.ws = ep.ws ∧
      ep'.sock.memory = ep.sock.memory ∧ ep'.sock.rest = [] := by
  obtain ⟨rounds, rfl⟩ : ∃ fewer, rounds = fewer + 1 := ⟨rounds - 1, by omega⟩
  obtain ⟨reason, sock', hframe, hleft⟩ := readFrame_end hend
  exact ⟨reason, _, StateExcept.bind_error (WsEndpoint.onSocket_error hframe), rfl, hleft.memory, hleft.rest⟩

/-- Data that decodes is the encoding of the text. -/
theorem utf8Encode_of_decode {data : Bytes} {text : String} (h : utf8Decode data = some text) :
    utf8Encode text = data := by
  rw [utf8Decode, String.fromUTF8?] at h
  split at h
  · cases h
    simp [utf8Encode, String.fromUTF8]
  · cases h

/-- A message is returned as what was assembled, or its text cannot be decoded. -/
theorem assembled_cases {opcode : Opcode} (data : Bytes) (ep : WsEndpoint)
    (htype : opcode = .text ∨ opcode = .binary) :
    (∃ message : WsMessage, WsEndpoint.assembled opcode data ep = .ok message ep ∧
      message.gathered = { opcode, data }) ∨
      (opcode = .text ∧ utf8Decode data = none ∧
        WsEndpoint.assembled opcode data ep = .error (.unicodeDecodeError data) ep) := by
  rcases htype with rfl | rfl
  · cases hdecode : utf8Decode data with
    | none =>
        right
        rw [WsEndpoint.assembled, if_pos rfl, hdecode]
        exact ⟨rfl, rfl, rfl⟩
    | some text =>
        left
        refine ⟨.text text, ?_, ?_⟩
        · rw [WsEndpoint.assembled, if_pos rfl, hdecode]
          rfl
        · rw [WsMessage.gathered, utf8Encode_of_decode hdecode]
  · exact .inl ⟨.binary data, rfl, rfl⟩

theorem stream_append (first second : List WireFrame) :
    WireFrame.stream (first ++ second) = WireFrame.stream first ++ WireFrame.stream second :=
  List.flatMap_append

/-! ### How a call ends -/

/-- How a call on an open `WebSocket` ends that has read the first of some frames and left the others. -/
inductive CallOver (ep : WsEndpoint) (read unread : List WireFrame) : Prop where
  | unanswered {pending : Option Gathered} {fault : WriteFault} (passes : Passes none read pending)
      (failing : some fault ∈ ep.sock.faults) (result : ep.call.result = .error (.osError fault.text))
  | exhausted {pending : Option Gathered} {reason : String} (passes : Passes none read pending)
      (nothing : unread = []) (result : ep.call.result = .error (.connectionClosed none reason))
  | closed {pending : Option Gathered} {passed : List WireFrame} {last : WireFrame} {code : Option Nat}
      {reason : String} (split : read = passed ++ [last]) (passes : Passes none passed pending)
      (close : last.content.opcode = .close) (marked : ep.call.after.ws.closed = true)
      (result : ep.call.result = .error (.connectionClosed code reason))
  | orphan {passed : List WireFrame} {last : WireFrame} {text : String} (split : read = passed ++ [last])
      (passes : Passes none passed none) (cont : last.content.opcode = .cont)
      (ws : ep.call.after.ws = ep.ws) (faults : ep.call.after.sock.faults <:+ ep.sock.faults)
      (result : ep.call.result = .error (.protocolError text))
  | complete {pending : Option Gathered} {passed : List WireFrame} {last : WireFrame} {message : Gathered}
      (split : read = passed ++ [last]) (passes : Passes none passed pending)
      (data : last.content.isData = true) (fin : last.content.fin = true)
      (effect : last.content.effect pending = .complete message)
      (ws : ep.call.after.ws = ep.ws) (faults : ep.call.after.sock.faults <:+ ep.sock.faults)
      (result : (∃ returned : WsMessage, ep.call.result = .ok returned ∧ returned.gathered = message) ∨
        ep.call.result = .error (.unicodeDecodeError message.data))

/-- Every call on an open `WebSocket` whose stream is made of frames ends in one of these ways. -/
theorem call_over {ep : WsEndpoint} {frames : List WireFrame} (hopen : ep.ws.closed = false)
    (hrest : ep.sock.rest = WireFrame.stream frames)
    (hserved : ∀ frame ∈ frames, frame.payload.length ≤ ep.sock.memory.largest) :
    ∃ read unread, frames = read ++ unread ∧ ep.call.after.sock.rest = WireFrame.stream unread ∧
      ep.call.after.sock.memory = ep.sock.memory ∧ CallOver ep read unread := by
  have hwhole : ep.sock.rest = WireFrame.stream frames ++ [] := by rw [List.append_nil, hrest]
  rcases WsEndpoint.recv_assemble frames hopen hwhole hserved with
    ⟨hsplit, hfailing, hraised, _, hmemory, hleft, hpassed⟩ | ⟨_, ep', _, hadvanced, hends⟩
  · have hcall := call_of_error hraised
    rw [List.append_nil] at hleft
    exact ⟨_, _, hsplit, by rw [hcall, hleft], by rw [hcall, hmemory],
      .unanswered hpassed hfailing (by rw [hcall])⟩
  · obtain ⟨passed, pending, hpassed, hcases⟩ := assemble_cases none frames
    rcases hcases with ⟨rfl, hassemble⟩ | ⟨last, unread, hlast, hcases⟩
    · -- The stream ends inside the message.
      rw [hassemble] at hadvanced hends
      obtain ⟨rounds, chunks, messageOpcode, hrounds, _, hloop⟩ := hends
      obtain ⟨reason, ep'', hraised, _, hmemory, hnothing⟩ :=
        recvLoop_end chunks messageOpcode hadvanced.rest (Nat.lt_of_le_of_lt (Nat.zero_le _) hrounds)
      have hcall := call_of_error (hloop.trans hraised)
      exact ⟨frames, [], (List.append_nil _).symm, by rw [hcall, hnothing]; rfl,
        by rw [hcall, hmemory, hadvanced.memory], .exhausted hpassed rfl (by rw [hcall])⟩
    · have hread : frames = (passed ++ [last]) ++ unread := by
        rw [hlast, List.append_assoc]
        rfl
      have hfaults : ep'.sock.faults <:+ ep.sock.faults := by
        rw [hadvanced.faults]
        exact List.drop_suffix _ _
      refine ⟨passed ++ [last], unread, hread, ?_⟩
      rcases hcases with
        ⟨hclose, hassemble⟩ | ⟨hcont, rfl, hassemble⟩ | ⟨message, hdata, hfin, heffect, hassemble⟩
      · rw [hassemble, List.append_nil] at hadvanced
        rw [hassemble] at hends
        have hcall := call_of_error hends
        rw [hcall]
        exact ⟨hadvanced.rest, hadvanced.memory, .closed rfl hpassed hclose (by rw [hcall]) (by rw [hcall])⟩
      · rw [hassemble, List.append_nil] at hadvanced
        rw [hassemble] at hends
        have hcall := call_of_error hends
        rw [hcall]
        exact ⟨hadvanced.rest, hadvanced.memory, .orphan rfl hpassed hcont (by rw [hcall, hadvanced.ws])
          (by rw [hcall]; exact hfaults) (by rw [hcall])⟩
      · rw [hassemble, List.append_nil] at hadvanced
        rw [hassemble] at hends
        rcases assembled_cases message.data ep' (type_of_complete hpassed hdata heffect) with
          ⟨returned, hresult, hgathered⟩ | ⟨_, _, hresult⟩
        · have hcall := call_of_ok (hends.trans hresult)
          rw [hcall]
          exact ⟨hadvanced.rest, hadvanced.memory, .complete rfl hpassed hdata hfin heffect
            (by rw [hcall, hadvanced.ws]) (by rw [hcall]; exact hfaults)
            (.inl ⟨returned, by rw [hcall], hgathered⟩)⟩
        · have hcall := call_of_error (hends.trans hresult)
          rw [hcall]
          exact ⟨hadvanced.rest, hadvanced.memory, .complete rfl hpassed hdata hfin heffect
            (by rw [hcall, hadvanced.ws]) (by rw [hcall]; exact hfaults) (.inr (by rw [hcall]))⟩

/-! ### Uninterrupted messages -/

/-- A call that returns no message keeps the grammar when nothing it has read is out of place, or when it
raises a `ProtocolError`. -/
theorem keepsGrammar_of_error {ep : WsEndpoint} {exn : TransportExn} {read : List WireFrame}
    (hconsumed : ep.sock.rest = WireFrame.stream read ++ ep.call.after.sock.rest)
    (hresult : ep.call.result = .error exn)
    (hviolation : Interrupted (read.map WireFrame.content) ∨ Orphaned (read.map WireFrame.content) →
      ∃ text, exn = .protocolError text) : KeepsGrammar ep.call read where
  consumed := by rw [call_before, hconsumed]
  message := by
    intro message hmessage
    rw [hresult] at hmessage
    cases hmessage
  violation := by
    intro hplace
    obtain ⟨text, rfl⟩ := hviolation hplace
    exact ⟨text, hresult⟩

/-- A continuation frame that completes a message is not out of place. -/
theorem isSome_of_complete {pending : Option Gathered} {frame : WsFrame} {message : Gathered}
    (heffect : frame.effect pending = .complete message) (hcont : frame.opcode = .cont) :
    pending.isSome = true := by
  cases pending with
  | none =>
      rw [WsFrame.effect.eq_def, hcont] at heffect
      cases heffect
  | some other => rfl

/-- A call that reads no interruption keeps the grammar. -/
theorem CallOver.keepsGrammar {ep : WsEndpoint} {read unread : List WireFrame} (h : CallOver ep read unread)
    (hconsumed : ep.sock.rest = WireFrame.stream read ++ ep.call.after.sock.rest)
    (huninterrupted : ¬ Interrupted (read.map WireFrame.content)) : KeepsGrammar ep.call read := by
  cases h with
  | unanswered passes _ result =>
      apply keepsGrammar_of_error hconsumed result
      rintro (hinterrupted | horphaned)
      · exact absurd hinterrupted huninterrupted
      · exact absurd horphaned passes.not_orphaned
  | exhausted passes _ result =>
      apply keepsGrammar_of_error hconsumed result
      rintro (hinterrupted | horphaned)
      · exact absurd hinterrupted huninterrupted
      · exact absurd horphaned passes.not_orphaned
  | closed split passes close _ result =>
      subst split
      apply keepsGrammar_of_error hconsumed result
      rintro (hinterrupted | horphaned)
      · exact absurd hinterrupted huninterrupted
      · refine absurd horphaned (passes.not_orphaned_concat fun hcont => ?_)
        rw [close] at hcont
        cases hcont
  | orphan _ _ _ _ _ result => exact keepsGrammar_of_error hconsumed result fun _ => ⟨_, rfl⟩
  | complete split passes data fin effect _ _ result =>
      have hplace : ¬ (Interrupted (read.map WireFrame.content) ∨ Orphaned (read.map WireFrame.content)) := by
        rintro (hinterrupted | horphaned)
        · exact huninterrupted hinterrupted
        · rw [split] at horphaned
          exact passes.not_orphaned_concat (isSome_of_complete effect) horphaned
      rcases result with ⟨returned, result, rfl⟩ | result
      · refine ⟨by rw [call_before, hconsumed], ?_, fun hviolation => absurd hviolation hplace⟩
        intro message hmessage
        rw [result] at hmessage
        cases hmessage
        rw [split] at huninterrupted ⊢
        exact fragmentation_of_complete passes data fin effect huninterrupted
      · exact keepsGrammar_of_error hconsumed result fun hviolation => absurd hviolation hplace

/-- A data frame is no close frame. -/
theorem not_close_of_isData {frame : WsFrame} (h : frame.isData = true) : frame.opcode ≠ .close := by
  intro hclose
  rw [WsFrame.isData, hclose] at h
  cases h

/-- Frames that pass and one that is no close frame hold no close frame. -/
theorem Passes.noClose_concat {pending : Option Gathered} {passed : List WireFrame} {last : WireFrame}
    (h : Passes none passed pending) (hlast : last.content.opcode ≠ .close) :
    ∀ frame ∈ (passed ++ [last]).map WireFrame.content, frame.opcode ≠ .close := by
  intro frame hframe
  rw [List.map_append, List.mem_append] at hframe
  rcases hframe with hframe | hframe
  · exact h.noClose frame hframe
  · rw [List.mem_singleton.mp hframe]
    exact hlast

/-- A call that reads a close frame marks the `WebSocket` closed. -/
theorem CallOver.marked_or_noClose {ep : WsEndpoint} {read unread : List WireFrame}
    (h : CallOver ep read unread) : ep.call.after.ws.closed = true ∨
      ∀ frame ∈ read.map WireFrame.content, frame.opcode ≠ .close := by
  cases h with
  | unanswered passes _ _ => exact .inr passes.noClose
  | exhausted passes _ _ => exact .inr passes.noClose
  | closed _ _ _ marked _ => exact .inl marked
  | orphan split passes cont _ _ _ =>
      subst split
      right
      apply passes.noClose_concat
      rw [cont]
      decide
  | complete split passes data _ _ _ _ _ =>
      subst split
      exact .inr (passes.noClose_concat (not_close_of_isData data))

/-- A call on a closed `WebSocket` reads nothing. -/
theorem call_closed {ep : WsEndpoint} (h : ep.ws.closed = true) :
    ep.call = ⟨ep, .error (.connectionClosed none "recv on closed connection"), ep⟩ := by
  apply call_of_error
  rw [WsEndpoint.recv, StateExcept.get_bind, if_pos h]
  rfl

/-- One call keeps the grammar, and what it leaves is not interrupted either, unless it has read a close
frame. -/
theorem call_keepsGrammar {ep : WsEndpoint} {frames : List WireFrame}
    (hrest : ep.sock.rest = WireFrame.stream frames)
    (hserved : ∀ frame ∈ frames, frame.payload.length ≤ ep.sock.memory.largest)
    (hkept : ep.ws.closed = true ∨ ¬ Interrupted (frames.map WireFrame.content)) :
    ∃ read unread, frames = read ++ unread ∧ KeepsGrammar ep.call read ∧
      ep.call.after.sock.rest = WireFrame.stream unread ∧
      ep.call.after.sock.memory = ep.sock.memory ∧
      (ep.call.after.ws.closed = true ∨ ¬ Interrupted (unread.map WireFrame.content)) := by
  cases hclosed : ep.ws.closed with
  | true =>
      have hcall := call_closed hclosed
      have hresult : ep.call.result = .error (.connectionClosed none "recv on closed connection") := by
        rw [hcall]
      refine ⟨[], frames, rfl, keepsGrammar_of_error ?_ hresult ?_, ?_, ?_, .inl ?_⟩
      · rw [hcall]
        rfl
      · rintro (⟨before, frame, after, hnil, _⟩ | ⟨before, frame, after, hnil, _⟩)
        · simp at hnil
        · simp at hnil
      · rw [hcall, hrest]
      · rw [hcall]
      · rw [hcall, hclosed]
  | false =>
      have huninterrupted := hkept.resolve_left (by simp [hclosed])
      obtain ⟨read, unread, rfl, hafter, hmemory, hover⟩ := call_over hclosed hrest hserved
      rw [List.map_append] at huninterrupted
      refine ⟨read, unread, rfl, hover.keepsGrammar ?_ ?_, hafter, hmemory, ?_⟩
      · rw [hrest, hafter, stream_append]
      · exact fun hinside => huninterrupted (hinside.append _)
      · rcases hover.marked_or_noClose with hmarked | hnoClose
        · exact .inl hmarked
        · exact .inr fun hbehind => huninterrupted (hbehind.prepend hnoClose)

/-- Uninterrupted frames: every call keeps the grammar. -/
theorem callsKeepGrammar_of_uninterrupted {ep : WsEndpoint} {frames : List WireFrame} (calls : Nat)
    (hrest : ep.sock.rest = WireFrame.stream frames)
    (hserved : ∀ frame ∈ frames, frame.payload.length ≤ ep.sock.memory.largest)
    (hkept : ep.ws.closed = true ∨ ¬ Interrupted (frames.map WireFrame.content)) :
    CallsKeepGrammar frames (recvCalls calls ep) := by
  induction calls generalizing ep frames with
  | zero => exact ⟨[], frames, rfl, .nil⟩
  | succ calls ih =>
      obtain ⟨read, unread, rfl, hcall, hrest', hmemory, hkept'⟩ := call_keepsGrammar hrest hserved hkept
      have hserved' : ∀ frame ∈ unread, frame.payload.length ≤ ep.call.after.sock.memory.largest := by
        intro frame hframe
        rw [hmemory]
        exact hserved frame (List.mem_append_right _ hframe)
      obtain ⟨parts, left, rfl, hparts⟩ := ih hrest' hserved' hkept'
      refine ⟨read :: parts, left, ?_, .cons hcall hparts⟩
      rw [List.flatten_cons, List.append_assoc]

/-! ### Interrupted messages -/

/-- An interruption lies in the first frames, or these do not close and it lies behind them. -/
theorem Interrupted.of_append {first second : List WsFrame} (h : Interrupted (first ++ second)) :
    Interrupted first ∨ ((∀ frame ∈ first, frame.opcode ≠ .close) ∧
      (openAfter false first = false → Interrupted second)) := by
  obtain ⟨before, frame, after, hsplit, hclose, hopen, htype⟩ := h
  rcases List.append_eq_append_iff.mp hsplit with ⟨between, rfl, hsecond⟩ | ⟨between, rfl, hafter⟩
  · right
    refine ⟨fun other hother => hclose other (List.mem_append_left _ hother), fun hfirst => ?_⟩
    refine ⟨between, frame, after, hsecond, fun other hother =>
      hclose other (List.mem_append_right _ hother), ?_, htype⟩
    rw [openAfter, List.foldl_append] at hopen
    rw [openAfter] at hfirst
    rw [hfirst] at hopen
    exact hopen
  · cases between with
    | nil =>
        right
        rw [List.append_nil]
        refine ⟨hclose, fun hfirst => ?_⟩
        rw [hfirst] at hopen
        cases hopen
    | cons next between =>
        left
        rw [← (List.cons.inj hafter).1]
        exact ⟨before, frame, between, rfl, hclose, hopen, htype⟩

/-- An interrupted message stays under assembly. -/
theorem Passes.isSome_of_interrupted {pending : Option Gathered} {frames : List WireFrame}
    (h : Passes none frames pending) (hinterrupted : Interrupted (frames.map WireFrame.content)) :
    pending.isSome = true := by
  obtain ⟨before, frame, after, hsplit, _, hopen, _⟩ := hinterrupted
  obtain ⟨first, second, rfl, rfl, _⟩ := List.map_eq_append_iff.mp hsplit
  obtain ⟨between, hfirst, hsecond⟩ := h.of_append
  apply hsecond.isSome
  rw [← hfirst.openAfter]
  exact hopen

/-- The frames that a call has read are told by the bytes it has read. -/
theorem eq_of_stream_eq {first second first' second' : List WireFrame}
    (h : first ++ second = first' ++ second') (hstream : WireFrame.stream first = WireFrame.stream first') :
    first = first' := by
  have hnil : ∀ frames : List WireFrame, WireFrame.stream frames = [] → frames = [] := by
    intro frames hframes
    cases frames with
    | nil => rfl
    | cons frame frames =>
        have hsize := WsEndpoint.two_le_length_bytes frame
        rw [WireFrame.stream, List.flatMap_cons] at hframes
        rw [(List.append_eq_nil_iff.mp hframes).1] at hsize
        cases hsize
  rcases List.append_eq_append_iff.mp h with ⟨between, rfl, _⟩ | ⟨between, rfl, _⟩
  · rw [stream_append, List.self_eq_append_right] at hstream
    rw [hnil between hstream, List.append_nil]
  · rw [stream_append, List.append_right_eq_self] at hstream
    rw [hnil between hstream, List.append_nil]

/-- Calls that keep the grammar do so with the frames that the first of them has read. -/
theorem CallsKeepGrammar.first {frames read unread : List WireFrame} {ep : WsEndpoint} {calls : Nat}
    (h : CallsKeepGrammar frames (recvCalls (calls + 1) ep)) (hread : frames = read ++ unread)
    (hbefore : ep.sock.rest = WireFrame.stream frames)
    (hafter : ep.call.after.sock.rest = WireFrame.stream unread) :
    KeepsGrammar ep.call read ∧ CallsKeepGrammar unread (recvCalls calls ep.call.after) := by
  obtain ⟨parts, left, hsplit, hparts⟩ := h
  cases hparts with
  | cons hcall hcalls =>
      rename_i part parts
      have hconsumed := hcall.consumed
      rw [call_before, hbefore, hafter, hread, stream_append, List.append_left_inj] at hconsumed
      have hall : read ++ unread = part ++ (parts.flatten ++ left) := by
        rw [← hread, hsplit, List.flatten_cons, List.append_assoc]
      obtain rfl := eq_of_stream_eq hall hconsumed
      exact ⟨hcall, parts, left, List.append_cancel_left hall, hcalls⟩

/-- A call that goes past an interruption does not keep the grammar. -/
theorem not_keepsGrammar {call : RecvCall} {read : List WireFrame}
    (hinterrupted : Interrupted (read.map WireFrame.content))
    (hresult : ∀ text, call.result ≠ .error (.protocolError text)) : ¬ KeepsGrammar call read := by
  intro hkeeps
  obtain ⟨text, herror⟩ := hkeeps.violation (.inl hinterrupted)
  exact hresult text herror

/-- A call that has read an interruption raises no `ProtocolError`: only a continuation frame out of place
does, and none is behind an interruption. -/
theorem CallOver.not_refused {ep : WsEndpoint} {read unread : List WireFrame} (h : CallOver ep read unread)
    (hinterrupted : Interrupted (read.map WireFrame.content)) (text : String) :
    ep.call.result ≠ .error (.protocolError text) := by
  cases h with
  | unanswered _ _ result => simp [result]
  | exhausted _ _ result => simp [result]
  | closed _ _ _ _ result => simp [result]
  | orphan split passes _ _ _ _ =>
      rw [split, List.map_append] at hinterrupted
      rcases hinterrupted.of_append with hpast | ⟨_, hpast⟩
      · cases passes.isSome_of_interrupted hpast
      · obtain ⟨before, frame, after, hsplit, _, hopen, _⟩ := hpast passes.openAfter
        have hfirst : before = [] := by
          have hlength := congrArg List.length hsplit
          simp only [List.map_cons, List.map_nil, List.length_cons, List.length_nil, List.length_append]
            at hlength
          exact List.length_eq_zero_iff.mp (by omega)
        rw [hfirst] at hopen
        cases hopen
  | complete _ _ _ _ _ _ _ result =>
      rcases result with ⟨_, result, _⟩ | result
      · simp [result]
      · simp [result]

/-- What is open behind frames that pass and one more. -/
theorem Passes.openAfter_concat {pending : Option Gathered} {passed : List WireFrame}
    (h : Passes none passed pending) (last : WireFrame) :
    Priestly.openAfter false ((passed ++ [last]).map WireFrame.content) =
      isOpenAfter pending.isSome last.content := by
  rw [List.map_append, Priestly.openAfter, List.foldl_append]
  exact congrArg (isOpenAfter · last.content) h.openAfter

/-- A final data frame leaves no message open. -/
theorem isOpenAfter_of_final {frame : WsFrame} (hdata : frame.isData = true) (hfin : frame.fin = true)
    (before : Bool) : isOpenAfter before frame = false := by
  rw [isOpenAfter]
  cases hopcode : frame.opcode with
  | cont => simp [hfin]
  | text => simp [hfin]
  | binary => simp [hfin]
  | close => exact absurd hopcode (not_close_of_isData hdata)
  | ping => simp [WsFrame.isData, hopcode, Opcode.isControl] at hdata
  | pong => simp [WsFrame.isData, hopcode, Opcode.isControl] at hdata

/-- An interruption that a call has not read lies behind what it has read, and the `WebSocket` goes on. -/
theorem CallOver.interrupted_behind {ep : WsEndpoint} {read unread : List WireFrame}
    (h : CallOver ep read unread) (hwritable : ep.sock.faults = [])
    (hinterrupted : Interrupted ((read ++ unread).map WireFrame.content))
    (houtside : ¬ Interrupted (read.map WireFrame.content)) :
    read ≠ [] ∧ Interrupted (unread.map WireFrame.content) ∧ ep.call.after.ws = ep.ws ∧
      ep.call.after.sock.faults = [] := by
  rw [List.map_append] at hinterrupted
  obtain ⟨hnoClose, hbehind⟩ := hinterrupted.of_append.resolve_left houtside
  cases h with
  | unanswered _ failing _ =>
      rw [hwritable] at failing
      cases failing
  | exhausted _ nothing _ =>
      rw [nothing, List.map_nil, List.append_nil] at hinterrupted
      exact absurd hinterrupted houtside
  | closed split _ close _ _ =>
      refine absurd close (hnoClose _ ?_)
      rw [split, List.map_append]
      exact List.mem_append_right _ List.mem_cons_self
  | orphan split passes cont ws faults _ =>
      refine ⟨by simp [split], hbehind ?_, ws, List.suffix_nil.mp (hwritable ▸ faults)⟩
      rw [split, passes.openAfter_concat, isOpenAfter, cont]
      rfl
  | complete split passes data fin _ ws faults _ =>
      refine ⟨by simp [split], hbehind ?_, ws, List.suffix_nil.mp (hwritable ▸ faults)⟩
      rw [split, passes.openAfter_concat, isOpenAfter_of_final data fin]

/-- Interrupted frames: some call does not keep the grammar. The induction is on the frames that the
calls before it have left. -/
theorem not_callsKeepGrammar_of_interrupted (size : Nat) {ep : WsEndpoint} {frames : List WireFrame}
    (hsize : frames.length ≤ size) (hopen : ep.ws.closed = false) (hwritable : ep.sock.faults = [])
    (hrest : ep.sock.rest = WireFrame.stream frames)
    (hserved : ∀ frame ∈ frames, frame.payload.length ≤ ep.sock.memory.largest)
    (hinterrupted : Interrupted (frames.map WireFrame.content)) :
    ∃ calls, ¬ CallsKeepGrammar frames (recvCalls calls ep) := by
  induction size generalizing ep frames with
  | zero =>
      obtain ⟨before, frame, after, hnil, _⟩ := hinterrupted
      rw [List.length_eq_zero_iff.mp (Nat.le_zero.mp hsize)] at hnil
      simp at hnil
  | succ size ih =>
      obtain ⟨read, unread, rfl, hafter, hmemory, hover⟩ := call_over hopen hrest hserved
      by_cases hinside : Interrupted (read.map WireFrame.content)
      · refine ⟨1, fun hkeep => ?_⟩
        obtain ⟨hfirst, _⟩ := hkeep.first rfl hrest hafter
        exact not_keepsGrammar hinside (hover.not_refused hinside) hfirst
      · obtain ⟨hread, hbehind, hws, hfaults⟩ := hover.interrupted_behind hwritable hinterrupted hinside
        have hfewer : unread.length ≤ size := by
          have := List.length_pos_of_ne_nil hread
          rw [List.length_append] at hsize
          omega
        have hserved' : ∀ frame ∈ unread, frame.payload.length ≤ ep.call.after.sock.memory.largest := by
          intro frame hframe
          rw [hmemory]
          exact hserved frame (List.mem_append_right _ hframe)
        obtain ⟨calls, hcalls⟩ := ih hfewer (hws ▸ hopen) hfaults hafter hserved' hbehind
        refine ⟨calls + 1, fun hkeep => hcalls ?_⟩
        exact (hkeep.first rfl hrest hafter).2

/-- A server whose unread stream is the frames, in one piece to a byte. -/
def framesEndpoint (memory : Memory) (frames : List WireFrame) : WsEndpoint :=
  let sample := bytesEndpoint (WireFrame.stream frames)
  { sample with sock := { sample.sock with memory := memory } }

theorem rest_framesEndpoint (memory : Memory) (frames : List WireFrame) :
    (framesEndpoint memory frames).sock.rest = WireFrame.stream frames := by
  rw [framesEndpoint, bytesEndpoint, Socket.rest, Piece.flat, List.flatMap_map]
  exact List.flatMap_singleton' _

/-- Over interrupted frames not every call keeps the grammar. -/
theorem not_grammarKept {memory : Memory} {frames : List WireFrame}
    (hserved : ∀ frame ∈ frames, frame.payload.length ≤ memory.largest)
    (hinterrupted : Interrupted (frames.map WireFrame.content)) : ¬ GrammarKept memory frames := by
  intro hkept
  have hrest := rest_framesEndpoint memory frames
  obtain ⟨calls, hcalls⟩ :=
    not_callsKeepGrammar_of_interrupted frames.length (le_refl _) rfl rfl hrest hserved hinterrupted
  exact hcalls (hkept _ calls rfl rfl hrest)

/-- `recv` keeps the message grammar of a sequence of frames, in every run of calls over them, exactly
when no text or binary frame arrives while a fragmented message is open: that frame is taken for a
continuation, and the message gets its type. -/
theorem grammar_kept_iff (memory : Memory) (frames : List WireFrame)
    (hserved : ∀ frame ∈ frames, frame.payload.length ≤ memory.largest) :
    GrammarKept memory frames ↔ ¬ Interrupted (frames.map WireFrame.content) := by
  constructor
  · intro hkept hinterrupted
    exact not_grammarKept hserved hinterrupted hkept
  · rintro huninterrupted ep calls rfl hopen hrest
    exact callsKeepGrammar_of_uninterrupted calls hrest hserved (.inr huninterrupted)

/-- A final binary frame with the payload `1`. -/
def wholeBinary : WireFrame where
  header := {
    fin := true, opcode := .binary, form := .short, length := 1, mask := none
    fits := by decide, control := by decide }
  payload := [1]
  complete := rfl

/-- A single final frame: every call over it keeps the grammar. -/
theorem grammar_kept_binary : GrammarKept .gibibyte [wholeBinary] := by
  apply (grammar_kept_iff .gibibyte [wholeBinary] (by decide)).mpr
  rintro ⟨before, frame, after, hsplit, _, hopen, _⟩
  cases before with
  | nil => cases hopen
  | cons first before => simp at hsplit

/-- A binary frame inside a fragmented text: the call returns the two payloads as one binary message. -/
theorem interrupted_text_becomes_binary :
    ¬ GrammarKept .gibibyte [fragmentStart, wholeBinary] ∧
      (bytesEndpoint (WireFrame.stream [fragmentStart, wholeBinary])).call.result =
        .ok (.binary [72, 1]) := by
  have hinterrupted : Interrupted ([fragmentStart, wholeBinary].map WireFrame.content) :=
    ⟨[fragmentStart.content], wholeBinary.content, [], rfl, by decide, by decide, .inr rfl⟩
  exact ⟨not_grammarKept (by decide) hinterrupted, by decide +kernel⟩

end Priestly
