/-
Module: Priestly.Proofs.ByteLink
Layer: Proofs
Purpose: The connection of bytes refines the link of messages: however the network cuts and delays the bytes,
  two drivers see each other's messages whole and in order, and what every schedule of messages reaches,
  every schedule of bytes reaches.
Imports: Priestly.Protocol.ByteLink, Priestly.Proofs.Completeness, Priestly.Proofs.FrameGrammar,
  Priestly.Proofs.MessageGrammar
Trusted boundary: primality of `P` and the JSON round trip of the handshake frames are hypotheses
Main exports: WsEndpoint.Fresh, Fits, InTransit, ByteLink.Agrees, byteLink_refines, FitsFrom.of_inevitable,
  bytes_follow_messages, covenant_completes_over_bytes
-/
import Priestly.Protocol.ByteLink
import Priestly.Proofs.Completeness
import Priestly.Proofs.FrameGrammar
import Priestly.Proofs.MessageGrammar

namespace Priestly

open ByteCodec Interaction

/-! ### Packets on the wire -/

/-- The JSON text of the frame takes no more than so many bytes. -/
def Fits (rt : Runtime) (room : Nat) (frame : Frame) : Prop :=
  (utf8Encode (dumps rt frame)).length ≤ room

/-- The WebSocket frame carries the text, in one piece of at most so many bytes. -/
structure CarriesText (room : Nat) (text : String) (frame : WireFrame) : Prop where
  content : frame.content = { fin := true, opcode := .text, payload := utf8Encode text }
  fits : frame.payload.length ≤ room

/-- The bytes that an end has not read yet are the packets of the queue: those that have arrived and those
that are still on their way. -/
def InTransit (rt : Runtime) (room : Nat) (ep : WsEndpoint) (pipe : Bytes) (queue : List Frame) : Prop :=
  ∃ frames, ep.sock.rest ++ pipe = WireFrame.stream frames ∧
    List.Forall₂ (fun frame wire => CarriesText room (dumps rt frame) wire) queue frames

/-- The `WebSocket` is open, its socket works, and its process can hold packets of so many bytes. -/
structure WsEndpoint.Live (ep : WsEndpoint) (room : Nat) : Prop where
  isOpen : ep.ws.closed = false
  working : ep.sock.faults = []
  holds : room ≤ ep.sock.memory.largest

/-- A live `WebSocket` at which nothing has arrived. -/
structure WsEndpoint.Fresh (ep : WsEndpoint) (room : Nat) : Prop extends ep.Live room where
  nothing : ep.sock.rest = []

namespace WsEndpoint

variable {ep ep' : WsEndpoint} {room : Nat}

@[simp] theorem rest_arrive (more : List (Piece UInt8)) (ep : WsEndpoint) :
    (ep.arrive more).sock.rest = ep.sock.rest ++ Piece.flat more := Piece.flat_append _ _

theorem Live.arrive (h : ep.Live room) (more : List (Piece UInt8)) : (ep.arrive more).Live room :=
  ⟨h.isOpen, h.working, h.holds⟩

/-- What a call has written is what it has appended. -/
theorem emitted_eq {bytes : Bytes} (h : ep'.sock.written = ep.sock.written ++ bytes) :
    ep.emitted ep' = bytes := by
  rw [emitted, h, List.drop_left]

/-- A text that fits is encoded as one frame. -/
theorem exists_packet {text : String} (hfits : (utf8Encode text).length ≤ room) (hroom : room ≤ 2 ^ 63 - 34)
    (mask : Option MaskingKey) :
    ∃ packet, encodeFrame .text (utf8Encode text) mask = .ok (WireFrame.bytes packet) ∧
      CarriesText room text packet :=
  ⟨_, encodeFrame_wire mask (lt_of_le_of_lt (hfits.trans hroom) (by decide))
    (fun hcontrol => by cases hcontrol), rfl, hfits⟩

/-- A live end sends a text that fits as one frame. -/
theorem send_live (h : ep.Live room) {text : String}
    (hfits : (utf8Encode text).length ≤ room) :
    ∃ ep' packet, send text ep = .ok () ep' ∧ ep'.Live room ∧ ep'.sock.rest = ep.sock.rest ∧
      ep.emitted ep' = WireFrame.bytes packet ∧ CarriesText room text packet := by
  obtain ⟨packet, hencode, hpacket⟩ := exists_packet hfits (h.holds.trans ep.sock.memory.stored)
    (if ep.ws.isClient then some (ep.urandom ep.drawn) else none)
  have hout : ep.ws.sendFrame (ep.urandom ep.drawn) .text (utf8Encode text) = .ok packet.bytes := by
    rw [WebSocket.sendFrame, if_neg (by simp [h.isOpen])]
    exact hencode
  have hsend : send text ep = onSocket (Socket.sendall packet.bytes)
      { ep with drawn := if ep.ws.isClient then ep.drawn + 1 else ep.drawn } := by
    rw [send, sendFrame, StateExcept.get_bind, hout]
    exact StateExcept.set_bind
  rw [hsend]
  rcases onSocket_sendall packet.bytes with hwrite | ⟨fault, hfault, _⟩
  · exact ⟨_, packet, hwrite, ⟨h.isOpen, by simp [h.working], h.holds⟩, rfl, emitted_eq rfl, hpacket⟩
  · rw [h.working] at hfault
    cases hfault

/-- A frame in one piece carries its text. -/
theorem carries_text {text : String} {frame : WireFrame} (h : CarriesText room text frame) :
    Carries ([frame].map WireFrame.content) [.text text] where
  fragments := by
    refine ⟨[[frame.content]], .cons ⟨⟨0, ?_⟩, ⟨0, ?_⟩, ?_⟩ .nil, ?_⟩
    · rw [h.content]
      rfl
    · rw [h.content]
      rfl
    · rw [h.content]
      exact List.append_nil _
    · simp [h.content, WsFrame.isData, Opcode.isControl]
  noClose := by
    simp [h.content]

/-- A live end receives the text of a frame that has arrived whole. -/
theorem recv_text (h : ep.Live room) {text : String} {frame : WireFrame} (htext : CarriesText room text frame)
    {more : Bytes} (hrest : ep.sock.rest = frame.bytes ++ more) :
    ∃ ep', recv ep = .ok (.text text) ep' ∧ ep'.Live room ∧ ep'.sock.rest = more ∧ ep.emitted ep' = [] := by
  have hrest' : ep.sock.rest = WireFrame.stream [frame] ++ more := by
    rw [hrest, WireFrame.stream, List.flatMap_singleton]
  obtain ⟨read, unread, ep', hsplit, hrecv, hadvanced, hcarries⟩ :=
    recv_carries h.isOpen h.working hrest'
      (fun other hother => by
        rw [List.mem_singleton.mp hother]
        exact le_trans htext.fits h.holds)
      (carries_text htext)
  have hunread : unread = [] := by
    rcases read with _ | ⟨first, read⟩
    · obtain rfl : [frame] = unread := hsplit
      obtain ⟨parts, hparts, hdata⟩ := hcarries.fragments
      cases hparts
      simp [htext.content, WsFrame.isData, Opcode.isControl] at hdata
    · exact (List.append_eq_nil_iff.mp (List.cons.inj hsplit).2.symm).2
  rw [hunread, List.append_nil] at hsplit
  rw [hunread] at hadvanced
  obtain ⟨pongs, hwritten, hcontents, _⟩ := hadvanced.pongs
  have hpings : pingPayloads read = [] := by
    have hother : frame.content.opcode ≠ .ping := by
      rw [htext.content]
      exact Opcode.noConfusion
    rw [← hsplit, pingPayloads_other hother]
  rw [hpings] at hcontents hadvanced
  have hpongs : pongs = [] := List.map_eq_nil_iff.mp hcontents
  refine ⟨ep', hrecv, ⟨hadvanced.ws ▸ h.isOpen, ?_, hadvanced.memory ▸ h.holds⟩, hadvanced.rest, emitted_eq ?_⟩
  · rw [hadvanced.faults, h.working]
    rfl
  · rw [hwritten, hpongs]
    rfl

/-- A call that returns has found a whole frame. -/
theorem frame_of_recv (hopen : ep.ws.closed = false) {message : WsMessage} (h : recv ep = .ok message ep') :
    ∃ frame more, ep.sock.rest = WireFrame.bytes frame ++ more := by
  rw [recv, StateExcept.get_bind, if_neg (by simp [hopen]), recvLoop] at h
  obtain ⟨frame, ep₁, hread, _⟩ := StateExcept.bind_eq_ok h
  cases hsock : readFrame ep.sock with
  | ok content sock₁ =>
      have hframe := readFrame_cases ep.sock
      rw [hsock] at hframe
      cases hframe with
      | frame stream _ _ => exact ⟨_, _, stream⟩
  | error exn sock₁ =>
      rw [onSocket_error hsock] at hread
      cases hread

/-- The empty text, in the shortest frame. -/
theorem exists_carriesText_empty (h : ep.Live room) : ∃ frame, CarriesText room "" frame := by
  have hempty : (utf8Encode "").length ≤ room := Nat.zero_le room
  obtain ⟨packet, _, hpacket⟩ := exists_packet hempty (h.holds.trans ep.sock.memory.stored) none
  exact ⟨packet, hpacket⟩

end WsEndpoint

/-! ### The queue of an end -/

namespace InTransit

variable {rt : Runtime} {room : Nat} {ep ep' : WsEndpoint} {pipe : Bytes} {queue : List Frame}

/-- Bytes that arrive are neither lost nor gained. -/
theorem arrive {piece : Piece UInt8} (h : InTransit rt room ep (piece.items ++ pipe) queue) :
    InTransit rt room (ep.arrive [piece]) pipe queue := by
  obtain ⟨frames, hstream, hframes⟩ := h
  refine ⟨frames, ?_, hframes⟩
  rw [← hstream, WsEndpoint.rest_arrive]
  simp

/-- A packet goes to the end of the queue. -/
theorem snoc (h : InTransit rt room ep pipe queue) {frame : Frame} {wire : WireFrame}
    (hwire : CarriesText room (dumps rt frame) wire) :
    InTransit rt room ep (pipe ++ wire.bytes) (queue ++ [frame]) := by
  obtain ⟨frames, hstream, hframes⟩ := h
  refine ⟨frames ++ [wire], ?_, List.rel_append hframes (.cons hwire .nil)⟩
  rw [WireFrame.stream, List.flatMap_append, ← WireFrame.stream, ← hstream, List.flatMap_singleton,
    List.append_assoc]

/-- The same bytes are left to an end that has only written. -/
theorem of_rest (h : InTransit rt room ep pipe queue) (hrest : ep'.sock.rest = ep.sock.rest) :
    InTransit rt room ep' pipe queue := by
  rw [InTransit, hrest]
  exact h

/-- A live end receives the head of its queue, and nothing else. -/
theorem received (h : InTransit rt room ep pipe queue) (hlive : ep.Live room) {message : WsMessage}
    (hrecv : WsEndpoint.recv ep = .ok message ep') :
    ∃ frame queue', queue = frame :: queue' ∧ message = wire rt frame ∧ ep'.Live room ∧
      ep.emitted ep' = [] ∧ InTransit rt room ep' pipe queue' := by
  obtain ⟨frames, hstream, hframes⟩ := h
  obtain ⟨found, more, hfound⟩ := WsEndpoint.frame_of_recv hlive.isOpen hrecv
  cases hframes with
  | nil =>
      rw [hfound] at hstream
      have hlength := congrArg List.length hstream
      have htwo := WsEndpoint.two_le_length_bytes found
      simp only [WireFrame.stream, List.flatMap_nil, List.length_append, List.length_nil] at hlength
      omega
  | @cons frame first queue' frames hfirst hframes =>
      rw [WireFrame.stream, List.flatMap_cons] at hstream
      have hprefix : first.bytes.length ≤ ep.sock.rest.length := by
        -- What the call has found is the first packet, so all of that has arrived.
        rw [hfound, List.append_assoc] at hstream
        have hmore := WireFrame.bytes_inj hstream
        rw [hmore] at hstream
        rw [hfound, List.append_cancel_right hstream, List.length_append]
        exact Nat.le_add_right _ _
      obtain ⟨later, hlater⟩ : ∃ later, ep.sock.rest = first.bytes ++ later := by
        have hpre : first.bytes <+: ep.sock.rest :=
          List.prefix_of_prefix_length_le ⟨_, hstream.symm⟩ ⟨_, rfl⟩ hprefix
        obtain ⟨later, hlater⟩ := hpre
        exact ⟨later, hlater.symm⟩
      obtain ⟨ep'', hcall, hlive', hrest, hquiet⟩ := WsEndpoint.recv_text hlive hfirst hlater
      rw [hcall] at hrecv
      obtain ⟨rfl, rfl⟩ := EStateM.Result.ok.inj hrecv
      refine ⟨frame, queue', rfl, rfl, hlive', hquiet, frames, ?_, hframes⟩
      rw [hlater, List.append_assoc] at hstream
      rw [hrest]
      exact List.append_cancel_left hstream

/-- No exception is settled as long as the bytes on their way may complete a message. -/
theorem not_settled (h : InTransit rt room ep pipe queue) (hlive : ep.Live room) {exn : TransportExn}
    (hsettled : ∀ more, ∃ ep'', WsEndpoint.recv (ep.arrive more) = .error exn ep'') : False := by
  obtain ⟨text, frame, more, later, htext, hrest⟩ : ∃ text frame more later,
      CarriesText room text frame ∧ (ep.arrive more).sock.rest = WireFrame.bytes frame ++ later := by
    obtain ⟨frames, hstream, hframes⟩ := h
    cases hframes with
    | nil =>
        obtain ⟨frame, hframe⟩ := WsEndpoint.exists_carriesText_empty hlive
        refine ⟨"", frame, Piece.ofList frame.bytes, [], hframe, ?_⟩
        rw [WsEndpoint.rest_arrive, Piece.flat_ofList, (List.append_eq_nil_iff.mp hstream).1]
        simp
    | @cons frame first queue' frames hfirst hframes =>
        refine ⟨dumps rt frame, first, Piece.ofList pipe, WireFrame.stream frames, hfirst, ?_⟩
        rw [WsEndpoint.rest_arrive, Piece.flat_ofList, hstream, WireFrame.stream, List.flatMap_cons]
        rfl
  obtain ⟨ep₁, hraised⟩ := hsettled more
  obtain ⟨ep₂, hreturned, _⟩ := WsEndpoint.recv_text (hlive.arrive more) htext hrest
  rw [hreturned] at hraised
  cases hraised

end InTransit

/-! ### The refinement -/

section Refinement

variable (rt : Runtime) (room : Nat) {α β : Type}

/-- The connection stands where the link of messages stands: the same is left of the drivers, and the bytes
on their way are the packets of the messages on their way. -/
structure ByteLink.Agrees (c : ByteLink α β) (link : Link WsMessage Frame Exn α β) : Prop where
  left : c.left.program = link.left
  right : c.right.program = link.right
  leftLive : c.left.ep.Live room
  rightLive : c.right.ep.Live room
  toLeft : InTransit rt room c.left.ep c.toLeft link.toLeft
  toRight : InTransit rt room c.right.ep c.toRight link.toRight

/-- Every packet that the drivers write from here on fits. -/
def FitsFrom (link : Link WsMessage Frame Exn α β) : Prop :=
  ∀ later, Relation.ReflTransGen (LinkStep (wire rt)) link later → ∀ frame ∈ later.wire, Fits rt room frame

variable {rt room}

theorem FitsFrom.step {link link' : Link WsMessage Frame Exn α β} (h : FitsFrom rt room link)
    (hstep : LinkStep (wire rt) link link') : FitsFrom rt room link' :=
  fun later hreach => h later (.head hstep hreach)

/-- The number of bytes on their way. -/
def ByteLink.inFlight (c : ByteLink α β) : Nat := c.toLeft.length + c.toRight.length

/-- A driver that writes over a live end puts one packet on the wire. -/
theorem EndStep.of_send {frame : Frame} {next : Option Exn → Driver α} {ep : WsEndpoint} {bytes : Bytes}
    {after : PipeEnd α} (h : EndStep rt ⟨.send frame next, ep⟩ bytes after) (hlive : ep.Live room)
    (hfits : Fits rt room frame) :
    ∃ packet, bytes = WireFrame.bytes packet ∧ CarriesText room (dumps rt frame) packet ∧
      after.program = next none ∧ after.ep.Live room ∧ after.ep.sock.rest = ep.sock.rest := by
  obtain ⟨ep₁, packet, hsend, hlive₁, hrest, hemitted, hpacket⟩ := WsEndpoint.send_live hlive hfits
  cases h with
  | sent call =>
      rw [hsend] at call
      obtain ⟨_, rfl⟩ := EStateM.Result.ok.inj call
      exact ⟨packet, hemitted, hpacket, rfl, hlive₁, hrest⟩
  | sendRaised call =>
      rw [hsend] at call
      cases call

/-- A driver that reads over a live end gets the head of its queue. -/
theorem EndStep.of_recv {next : Except Exn WsMessage → Driver α} {ep : WsEndpoint} {bytes pipe : Bytes}
    {queue : List Frame} {after : PipeEnd α} (h : EndStep rt ⟨.recv next, ep⟩ bytes after)
    (hlive : ep.Live room) (hqueue : InTransit rt room ep pipe queue) :
    ∃ frame queue', queue = frame :: queue' ∧ bytes = [] ∧ after.program = next (.ok (wire rt frame)) ∧
      after.ep.Live room ∧ InTransit rt room after.ep pipe queue' := by
  cases h with
  | received call =>
      obtain ⟨frame, queue', hhead, rfl, hlive', hquiet, hqueue'⟩ := hqueue.received hlive call
      exact ⟨frame, queue', hhead, hquiet, rfl, hlive', hqueue'⟩
  | recvRaised call settled => exact (hqueue.not_settled hlive settled).elim

/-- A live end can write. -/
theorem EndStep.exists_send {frame : Frame} {next : Option Exn → Driver α} {ep : WsEndpoint}
    (hlive : ep.Live room) (hfits : Fits rt room frame) :
    ∃ bytes after, EndStep rt ⟨.send frame next, ep⟩ bytes after := by
  obtain ⟨ep', _, hsend, _⟩ := WsEndpoint.send_live hlive hfits
  exact ⟨_, _, .sent hsend⟩

/-- A live end whose queue is not empty can read, or bytes for it are still on their way. -/
theorem EndStep.exists_recv {next : Except Exn WsMessage → Driver α} {ep : WsEndpoint} {pipe : Bytes}
    {frame : Frame} {queue : List Frame} (hlive : ep.Live room)
    (hqueue : InTransit rt room ep pipe (frame :: queue)) :
    (∃ bytes after, EndStep rt ⟨.recv next, ep⟩ bytes after) ∨ pipe ≠ [] := by
  by_cases hpipe : pipe = []
  · left
    obtain ⟨frames, hstream, hframes⟩ := hqueue
    cases hframes with
    | cons hfirst hframes =>
        rw [hpipe, List.append_nil, WireFrame.stream, List.flatMap_cons] at hstream
        obtain ⟨ep', hrecv, _⟩ := WsEndpoint.recv_text hlive hfirst hstream
        exact ⟨_, _, .received hrecv⟩
  · exact .inr hpipe

/-- Bytes that are on their way can arrive. -/
theorem exists_piece {bytes : Bytes} (h : bytes ≠ []) : ∃ (piece : Piece UInt8) (rest : Bytes),
    bytes = piece.items ++ rest := by
  obtain ⟨byte, rest, rfl⟩ := List.exists_cons_of_ne_nil h
  exact ⟨{ head := byte, tail := [] }, rest, rfl⟩

namespace ByteLink.Agrees

variable {c c' : ByteLink α β} {link link' : Link WsMessage Frame Exn α β}

/-- A step of the connection is a step of the link, or bytes arrive. -/
theorem step (h : c.Agrees rt room link) (hfits : FitsFrom rt room link) (hstep : ByteStep rt c c') :
    (∃ link', LinkStep (wire rt) link link' ∧ c'.Agrees rt room link') ∨
      (c'.Agrees rt room link ∧ c'.inFlight < c.inFlight) := by
  obtain ⟨hleft, hright, hleftLive, hrightLive, htoLeft, htoRight⟩ := h
  obtain ⟨left, right, toLeft, toRight, wire⟩ := link
  simp only at hleft hright htoLeft htoRight
  cases hstep with
  | @left before after _ _ _ _ hend =>
      obtain ⟨program, ep⟩ := before
      simp only at hleft hleftLive htoLeft
      subst hleft
      left
      cases program with
      | done value => cases hend
      | raise exn => cases hend
      | send frame next =>
          have hnext : LinkStep (Priestly.wire rt) ⟨.send frame next, right, toLeft, toRight, wire⟩
              ⟨next none, right, toLeft, toRight ++ [frame], wire ++ [frame]⟩ := .leftSend
          obtain ⟨packet, rfl, hpacket, hprogram, hlive, hrest⟩ :=
            hend.of_send hleftLive (hfits _ (.single hnext) frame (by simp))
          exact ⟨_, hnext, hprogram, hright, hlive, hrightLive, htoLeft.of_rest hrest,
            htoRight.snoc hpacket⟩
      | recv next =>
          obtain ⟨frame, queue, rfl, rfl, hprogram, hlive, hqueue⟩ := hend.of_recv hleftLive htoLeft
          refine ⟨_, .leftRecv, hprogram, hright, hlive, hrightLive, hqueue, ?_⟩
          rw [List.append_nil]
          exact htoRight
  | @right _ before after _ _ _ hend =>
      obtain ⟨program, ep⟩ := before
      simp only at hright hrightLive htoRight
      subst hright
      left
      cases program with
      | done value => cases hend
      | raise exn => cases hend
      | send frame next =>
          have hnext : LinkStep (Priestly.wire rt) ⟨left, .send frame next, toLeft, toRight, wire⟩
              ⟨left, next none, toLeft ++ [frame], toRight, wire ++ [frame]⟩ := .rightSend
          obtain ⟨packet, rfl, hpacket, hprogram, hlive, hrest⟩ :=
            hend.of_send hrightLive (hfits _ (.single hnext) frame (by simp))
          exact ⟨_, hnext, hleft, hprogram, hleftLive, hlive, htoLeft.snoc hpacket,
            htoRight.of_rest hrest⟩
      | recv next =>
          obtain ⟨frame, queue, rfl, rfl, hprogram, hlive, hqueue⟩ := hend.of_recv hrightLive htoRight
          refine ⟨_, .rightRecv, hleft, hprogram, hleftLive, hlive, ?_, hqueue⟩
          rw [List.append_nil]
          exact htoLeft
  | @arriveLeft _ _ piece _ _ =>
      right
      refine ⟨⟨hleft, hright, hleftLive.arrive _, hrightLive, htoLeft.arrive, htoRight⟩, ?_⟩
      simp only [inFlight, List.length_append, Piece.items, List.length_cons]
      omega
  | @arriveRight _ _ piece _ _ =>
      right
      refine ⟨⟨hleft, hright, hleftLive, hrightLive.arrive _, htoLeft, htoRight.arrive⟩, ?_⟩
      simp only [inFlight, List.length_append, Piece.items, List.length_cons]
      omega

/-- Where the link can take a step, the connection can. -/
theorem alive (h : c.Agrees rt room link) (hfits : FitsFrom rt room link)
    (hstep : LinkStep (wire rt) link link') : ∃ c', ByteStep rt c c' := by
  obtain ⟨⟨leftProgram, leftEp⟩, ⟨rightProgram, rightEp⟩, pipeLeft, pipeRight⟩ := c
  obtain ⟨hleft, hright, hleftLive, hrightLive, htoLeft, htoRight⟩ := h
  simp only at hleft hright htoLeft htoRight hleftLive hrightLive
  cases hstep with
  | @leftSend message _ _ _ _ _ =>
      subst hleft
      obtain ⟨bytes, after, hend⟩ := EndStep.exists_send hleftLive
        (hfits _ (.single .leftSend) message (by simp))
      exact ⟨_, .left hend⟩
  | @rightSend _ message _ _ _ _ =>
      subst hright
      obtain ⟨bytes, after, hend⟩ := EndStep.exists_send hrightLive
        (hfits _ (.single .rightSend) message (by simp))
      exact ⟨_, .right hend⟩
  | leftRecv =>
      subst hleft
      rcases EndStep.exists_recv hleftLive htoLeft with ⟨bytes, after, hend⟩ | hpipe
      · exact ⟨_, .left hend⟩
      · obtain ⟨piece, rest, rfl⟩ := exists_piece hpipe
        exact ⟨_, .arriveLeft⟩
  | rightRecv =>
      subst hright
      rcases EndStep.exists_recv hrightLive htoRight with ⟨bytes, after, hend⟩ | hpipe
      · exact ⟨_, .right hend⟩
      · obtain ⟨piece, rest, rfl⟩ := exists_piece hpipe
        exact ⟨_, .arriveRight⟩

end ByteLink.Agrees

/-- The connection of bytes refines the link of messages. -/
theorem byteLink_refines : Refines (ByteStep (α := α) (β := β) rt) (LinkStep (wire rt))
    (fun c link => c.Agrees rt room link ∧ FitsFrom rt room link) ByteLink.inFlight where
  step := by
    rintro c c' link ⟨hagrees, hfits⟩ hstep
    rcases hagrees.step hfits hstep with ⟨link', hlink, hagrees'⟩ | ⟨hagrees', hlower⟩
    · exact .inl ⟨link', hlink, hagrees', hfits.step hlink⟩
    · exact .inr ⟨⟨hagrees', hfits⟩, hlower⟩
  alive := by
    rintro c link link' ⟨hagrees, hfits⟩ hstep
    exact hagrees.alive hfits hstep

/-- At the start nothing is on its way. -/
theorem agrees_start (left : Driver α) (right : Driver β) {leftEp rightEp : WsEndpoint}
    (hleft : leftEp.Fresh room) (hright : rightEp.Fresh room) :
    (ByteLink.start left right leftEp rightEp).Agrees rt room (Link.start left right) where
  left := rfl
  right := rfl
  leftLive := hleft.toLive
  rightLive := hright.toLive
  toLeft := ⟨[], by rw [ByteLink.start, hleft.nothing]; rfl, .nil⟩
  toRight := ⟨[], by rw [ByteLink.start, hright.nothing]; rfl, .nil⟩

/-- Nothing is on its way, and nothing has arrived that was not read. -/
def ByteLink.Quiet (c : ByteLink α β) : Prop :=
  (c.toLeft = [] ∧ c.left.ep.sock.rest = []) ∧ c.toRight = [] ∧ c.right.ep.sock.rest = []

/-- An empty queue has no bytes. -/
theorem InTransit.quiet {ep : WsEndpoint} {pipe : Bytes} (h : InTransit rt room ep pipe []) :
    pipe = [] ∧ ep.sock.rest = [] := by
  obtain ⟨frames, hstream, hframes⟩ := h
  cases hframes
  exact (List.append_eq_nil_iff.mp hstream).symm

theorem ByteLink.Agrees.quiet {c : ByteLink α β} {link : Link WsMessage Frame Exn α β}
    (h : c.Agrees rt room link) (hleft : link.toLeft = []) (hright : link.toRight = []) : c.Quiet := by
  have htoLeft := h.toLeft
  have htoRight := h.toRight
  rw [hleft] at htoLeft
  rw [hright] at htoRight
  exact ⟨htoLeft.quiet, htoRight.quiet⟩

/-- What has been written stays written. -/
theorem wire_grows {encode : Frame → WsMessage} {link link' : Link WsMessage Frame Exn α β}
    (h : Relation.ReflTransGen (LinkStep encode) link link') : link.wire <+: link'.wire := by
  induction h with
  | refl => exact List.prefix_refl _
  | tail _ hstep ih =>
      apply ih.trans
      cases hstep with
      | leftSend => exact List.prefix_append _ _
      | rightSend => exact List.prefix_append _ _
      | leftRecv => exact List.prefix_refl _
      | rightRecv => exact List.prefix_refl _

/-- Where a run is bound to stop at a goal, what the drivers write on the way are the messages on the wire at
the goal. -/
theorem FitsFrom.of_inevitable {goal : Link WsMessage Frame Exn α β → Prop}
    {link : Link WsMessage Frame Exn α β} (h : Inevitable (LinkStep (wire rt)) goal link)
    (stuck : ∀ g, goal g → ∀ g', ¬ LinkStep (wire rt) g g')
    (hfits : ∀ g, goal g → ∀ frame ∈ g.wire, Fits rt room frame) : FitsFrom rt room link := by
  intro later hreach frame hframe
  rcases h.onward hreach with honward | ⟨g, hg, hlater⟩
  · obtain ⟨g, hg, hlater⟩ := honward.reachable
    exact hfits g hg frame ((wire_grows hlater).subset hframe)
  · rcases hlater.cases_head with rfl | ⟨next, hstep, _⟩
    · exact hfits g hg frame hframe
    · exact absurd hstep (stuck g hg next)

section Started

variable {left : Driver α} {right : Driver β} {leftEp rightEp : WsEndpoint}

/-- Where a run over bytes has come, a run over messages has come. -/
theorem agrees_run (hleft : leftEp.Fresh room) (hright : rightEp.Fresh room)
    (hfits : FitsFrom rt room (Link.start left right))
    {c : ByteLink α β} (hrun : Relation.ReflTransGen (ByteStep rt) (.start left right leftEp rightEp) c) :
    ∃ link, Relation.ReflTransGen (LinkStep (wire rt)) (Link.start left right) link ∧ c.Agrees rt room link ∧
      FitsFrom rt room link :=
  byteLink_refines.run ⟨agrees_start left right hleft hright, hfits⟩ hrun

/-- What is inevitable over messages is inevitable over bytes. -/
theorem agrees_inevitable (hleft : leftEp.Fresh room) (hright : rightEp.Fresh room)
    (hfits : FitsFrom rt room (Link.start left right)) {goal : Link WsMessage Frame Exn α β → Prop}
    (h : Inevitable (LinkStep (wire rt)) goal (Link.start left right)) :
    Inevitable (ByteStep rt) (fun c => ∃ link, c.Agrees rt room link ∧ goal link)
      (.start left right leftEp rightEp) := by
  refine (byteLink_refines.inevitable ⟨agrees_start left right hleft hright, hfits⟩ h).mono ?_
  rintro c ⟨link, ⟨hagrees, _⟩, hreached⟩
  exact ⟨link, hagrees, hreached⟩

end Started

end Refinement

/-! ### The Covenant handshake over bytes -/

/-- An end at which nothing has arrived. -/
def freshEndpoint (memory : Memory) (isClient : Bool) : WsEndpoint where
  ws := { isClient, closed := false }
  sock := { memory, pieces := [], ending := none, faults := [], written := [] }
  urandom _ := Vector.replicate 4 7
  drawn := 0

theorem fresh_freshEndpoint (memory : Memory) (isClient : Bool) :
    (freshEndpoint memory isClient).Fresh memory.largest :=
  ⟨⟨rfl, rfl, le_refl _⟩, rfl⟩

/-- The frames of a handshake are sampled. -/
theorem loads_dumps_handshake (frame : Frame) (h : frame.IsHandshake) :
    loads (sampleRuntime hmacSha256) (dumps (sampleRuntime hmacSha256) frame) = .ok frame := by
  apply loads_dumps_sample
  cases frame with
  | covenantCommit _ | covenantChallenge _ | covenantConfirm _ _ | authOk _ => rfl
  | _ => exact h.elim

instance (rt : Runtime) (room : Nat) (frame : Frame) : Decidable (Fits rt room frame) :=
  inferInstanceAs (Decidable (_ ≤ _))

/-- What the two drivers write fits, when the packets of a handshake that succeeds do. -/
theorem fitsFrom_handshake {rt : Runtime} {grp : ModpGroup} (hP : grp.P.Prime)
    (hwire : ∀ frame : Frame, frame.IsHandshake → loads rt (dumps rt frame) = .ok frame)
    {password : Bytes} {a b : Nat} (hA : grp.InRange (publicElement grp a))
    (hM : grp.InRange (mask grp (publicElement grp b) (secretToElement grp rt.hmac password)))
    {room : Nat} (hfits : ∀ frame ∈ transcript rt grp a b password, Fits rt room frame) :
    FitsFrom rt room (Link.start (runClient rt grp a password) (runServer rt grp b password)) := by
  apply FitsFrom.of_inevitable (handshake_inevitable hP hwire hA hM)
  · rintro g rfl g' hstep
    cases hstep
  · rintro g rfl
    exact hfits

/-- Under every schedule of the two drivers and of the network between them, however the bytes are cut, the
Covenant handshake with one password completes: both drivers return, their sessions mirror each other, and no
byte is left over. Both processes have to be able to hold its four packets. -/
theorem covenant_completes_over_bytes (rt : Runtime) (grp : ModpGroup) (hP : grp.P.Prime)
    (hwire : ∀ frame : Frame, frame.IsHandshake → loads rt (dumps rt frame) = .ok frame)
    (password : Bytes) {a b : Nat} (hA : grp.InRange (publicElement grp a))
    (hM : grp.InRange (mask grp (publicElement grp b) (secretToElement grp rt.hmac password)))
    {room : Nat} (hfits : ∀ frame ∈ transcript rt grp a b password, Fits rt room frame)
    {clientEp serverEp : WsEndpoint} (hclient : clientEp.Fresh room) (hserver : serverEp.Fresh room) :
    ∃ client server : SessionState,
      Inevitable (ByteStep rt)
        (fun c => c.left.program = .done client ∧ c.right.program = .done server ∧ c.Quiet)
        (.start (runClient rt grp a password) (runServer rt grp b password) clientEp serverEp) ∧
      Mirrored client server := by
  have hdone := handshake_inevitable hP hwire hA hM
  have hall := fitsFrom_handshake hP hwire hA hM hfits
  refine ⟨_, _, ?_, mirrored_new (sessionKeys grp rt.hmac (honestSecret grp a b)) true true⟩
  refine (agrees_inevitable hclient hserver hall hdone).mono ?_
  rintro c ⟨link, hagrees, rfl⟩
  exact ⟨hagrees.left, hagrees.right, hagrees.quiet rfl rfl⟩

/-- The handshake over the group modulo 23, between a masking client and a server. -/
theorem covenant_completes_over_bytes_group23 :
    ∃ client server : SessionState,
      Inevitable (ByteStep (sampleRuntime hmacSha256))
        (fun c => c.left.program = .done client ∧ c.right.program = .done server ∧ c.Quiet)
        (.start (runClient (sampleRuntime hmacSha256) group23 3 (asciiBytes "alpha"))
          (runServer (sampleRuntime hmacSha256) group23 4 (asciiBytes "alpha"))
          (freshEndpoint .gibibyte true) (freshEndpoint .gibibyte false)) ∧
      Mirrored client server := by
  exact covenant_completes_over_bytes (sampleRuntime hmacSha256) group23 (by decide) loads_dumps_handshake
    (asciiBytes "alpha") (by decide +kernel) (by decide +kernel) (forall_mem_of_all (by decide +kernel))
    (fresh_freshEndpoint .gibibyte true) (fresh_freshEndpoint .gibibyte false)

end Priestly
