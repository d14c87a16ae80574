/-
Module: Priestly.Proofs.Reassembly
Layer: Proofs
Purpose: `recv` refines the reassembly of whole frames: wherever the stream of frames is cut into pieces
  and whatever the masking keys are, a call ends as the machine on frames does, leaves the frames that
  the machine leaves, and has answered each ping it read.
Imports: Priestly.Proofs.Assembly, Priestly.Proofs.Frames
Trusted boundary: none
Main exports: WsEndpoint.Advanced, WsEndpoint.Ends, recvLoop_assemble, recv_assemble
-/
import Priestly.Proofs.Assembly
import Priestly.Proofs.Frames

namespace Priestly

open ByteCodec

namespace WsEndpoint

/-! ### Progress of an endpoint -/

/-- The pong that answers a ping. -/
def pongOf (payload : Bytes) : WsFrame where
  fin := true
  opcode := .pong
  payload := payload

/-- The payloads of the pings among the frames. -/
def pingPayloads (frames : List WireFrame) : List Bytes :=
  (frames.filter fun frame => frame.header.opcode = .ping).map WireFrame.payload

/-- The endpoint later on, when it has answered the pings with one pong each, in their order, and `rest`
is left to read. -/
structure Advanced (ep ep' : WsEndpoint) (pings : List Bytes) (rest : Bytes) : Prop where
  ws : ep'.ws = ep.ws
  memory : ep'.sock.memory = ep.sock.memory
  ending : ep'.sock.ending = ep.sock.ending
  faults : ep'.sock.faults = ep.sock.faults.drop pings.length
  pongs : ∃ pongs : List WireFrame, ep'.sock.written = ep.sock.written ++ WireFrame.stream pongs ∧
    pongs.map WireFrame.content = pings.map pongOf ∧
    ∀ pong ∈ pongs, pong.header.mask.isSome = ep.ws.isClient
  rest : ep'.sock.rest = rest

namespace Advanced

variable {ep ep' ep'' : WsEndpoint} {pings pings' : List Bytes} {rest rest' : Bytes}

theorem trans (h : Advanced ep ep' pings rest) (h' : Advanced ep' ep'' pings' rest') :
    Advanced ep ep'' (pings ++ pings') rest' := by
  obtain ⟨pongs, hwritten, hcontent, hmask⟩ := h.pongs
  obtain ⟨pongs', hwritten', hcontent', hmask'⟩ := h'.pongs
  refine ⟨h'.ws.trans h.ws, h'.memory.trans h.memory, h'.ending.trans h.ending, ?_, ?_, h'.rest⟩
  · rw [h'.faults, h.faults, List.drop_drop, List.length_append]
  · refine ⟨pongs ++ pongs', ?_, ?_, ?_⟩
    · rw [hwritten', hwritten, WireFrame.stream, WireFrame.stream, WireFrame.stream,
        List.flatMap_append, List.append_assoc]
    · rw [List.map_append, List.map_append, hcontent, hcontent']
    · intro pong hpong
      rcases List.mem_append.mp hpong with hpong | hpong
      · exact hmask pong hpong
      · rw [hmask' pong hpong, h.ws]

/-- Reading does not write. -/
theorem of_left {sock' : Socket} (h : ep.sock.Left sock' rest) :
    Advanced ep { ep with sock := sock' } [] rest where
  ws := rfl
  memory := h.memory
  ending := h.ending
  faults := h.faults
  pongs := ⟨[], by rw [h.written]; exact (List.append_nil _).symm, rfl, by simp⟩
  rest := h.rest

end Advanced

variable {ep : WsEndpoint}

theorem onSocket_ok {α : Type} {action : SocketM α} {value : α} {sock' : Socket}
    (h : action ep.sock = .ok value sock') :
    onSocket action ep = .ok value { ep with sock := sock' } := by
  rw [onSocket, h]

theorem onSocket_error {α : Type} {action : SocketM α} {exn : TransportExn} {sock' : Socket}
    (h : action ep.sock = .error exn sock') :
    onSocket action ep = .error exn { ep with sock := sock' } := by
  rw [onSocket, h]

/-- Reading a frame. -/
theorem onSocket_readFrame {frame : WireFrame} {more : Bytes}
    (hrest : ep.sock.rest = frame.bytes ++ more) (hserved : frame.payload.length ≤ ep.sock.memory.largest) :
    ∃ ep', onSocket readFrame ep = .ok frame.content ep' ∧ Advanced ep ep' [] more := by
  obtain ⟨sock', hread, hleft⟩ := readFrame_frame hrest hserved
  exact ⟨_, onSocket_ok hread, Advanced.of_left hleft⟩

/-- `sendall` on an endpoint. -/
theorem onSocket_sendall (data : Bytes) :
    (onSocket (Socket.sendall data) ep = .ok () { ep with sock := {
        ep.sock with faults := ep.sock.faults.tail, written := ep.sock.written ++ data } }) ∨
      ∃ fault, some fault ∈ ep.sock.faults ∧
        onSocket (Socket.sendall data) ep = .error (.osError fault.text) { ep with sock := {
          ep.sock with
          faults := ep.sock.faults.tail, written := ep.sock.written ++ data.take fault.taken } } := by
  rcases hfaults : ep.sock.faults with _ | ⟨_ | fault, faults⟩
  · left
    simp only [onSocket, Socket.sendall, StateExcept.get_bind, hfaults]
    rfl
  · left
    simp only [onSocket, Socket.sendall, StateExcept.get_bind, hfaults]
    rfl
  · right
    refine ⟨fault, List.mem_cons_self, ?_⟩
    simp only [onSocket, Socket.sendall, StateExcept.get_bind, hfaults]
    rfl

/-- The frame that answers a ping. -/
theorem encodeFrame_pong {payload : Bytes} (hshort : payload.length < 126) (mask : Option MaskingKey) :
    ∃ pong : WireFrame, encodeFrame .pong payload mask = .ok pong.bytes ∧
      pong.content = pongOf payload ∧ pong.header.mask = mask :=
  ⟨_, encodeFrame_wire mask (Nat.lt_trans hshort (by decide)) (fun _ => hshort), rfl, rfl⟩

/-- A ping is answered with its payload, or the write fails. -/
theorem sendFrame_pong {payload : Bytes} (hopen : ep.ws.closed = false) (hshort : payload.length < 126) :
    (∃ ep', sendFrame .pong payload ep = .ok () ep' ∧ Advanced ep ep' [payload] ep.sock.rest) ∨
      ∃ ep' fault, some fault ∈ ep.sock.faults ∧
        sendFrame .pong payload ep = .error (.osError fault.text) ep' ∧ ep'.ws = ep.ws ∧
        ep'.sock.memory = ep.sock.memory ∧ ep'.sock.rest = ep.sock.rest := by
  obtain ⟨pong, hframe, hcontent, hmask⟩ := encodeFrame_pong hshort
    (if ep.ws.isClient then some (ep.urandom ep.drawn) else none)
  have hout : ep.ws.sendFrame (ep.urandom ep.drawn) .pong payload = .ok pong.bytes := by
    rw [WebSocket.sendFrame, if_neg (by simp [hopen])]
    exact hframe
  have hsend : sendFrame .pong payload ep = onSocket (Socket.sendall pong.bytes)
      { ep with drawn := if ep.ws.isClient then ep.drawn + 1 else ep.drawn } := by
    rw [sendFrame, StateExcept.get_bind, hout]
    exact StateExcept.set_bind
  rw [hsend]
  rcases onSocket_sendall pong.bytes with hwrite | ⟨fault, hfault, hwrite⟩
  · left
    refine ⟨_, hwrite, rfl, rfl, rfl, List.drop_one.symm, ⟨[pong], ?_, ?_, ?_⟩, rfl⟩
    · simp [WireFrame.stream]
    · simp [hcontent]
    · intro other hother
      rw [List.mem_singleton.mp hother, hmask]
      cases ep.ws.isClient <;> rfl
  · exact .inr ⟨_, fault, hfault, hwrite, rfl, rfl, rfl⟩

/-! ### The loop -/

/-- The variables of the loop hold the message under assembly. -/
structure Holds (pending : Option Gathered) (chunks : List Bytes) (messageOpcode : Option Opcode) :
    Prop where
  opcode : messageOpcode = pending.map Gathered.opcode
  data : chunks.flatten = WsFrame.gatheredData pending

theorem Holds.none : Holds none [] none := ⟨rfl, rfl⟩

/-- A data frame that does not end the message leaves it in the variables. -/
theorem Holds.extend {pending : Option Gathered} {chunks : List Bytes} {messageOpcode : Option Opcode}
    (h : Holds pending chunks messageOpcode) (opcode : Opcode) (payload : Bytes) :
    Holds (some { opcode, data := WsFrame.gatheredData pending ++ payload }) (chunks ++ [payload])
      (some opcode) := by
  refine ⟨rfl, ?_⟩
  rw [List.flatten_append, h.data, List.flatten_singleton]
  rfl

/-- How the loop ends, or goes on behind the frames. -/
def Ends (outcome : Outcome) (ep' : WsEndpoint) (result : EStateM.Result TransportExn WsEndpoint WsMessage) :
    Prop :=
  match outcome with
  | .message message => result = assembled message.opcode message.data ep'
  | .orphan => result = .error (.protocolError "continuation frame without a start") ep'
  | .close payload => result = .error (.connectionClosed (parseClose payload).1 (parseClose payload).2)
      { ep' with ws := { ep'.ws with closed := true } }
  | .exhausted pending => ∃ rounds chunks messageOpcode, ep'.sock.rest.length < rounds ∧
      Holds pending chunks messageOpcode ∧ result = recvLoop rounds chunks messageOpcode ep'

/-- What the loop does with frames and what follows them: a failed answer ends it, behind frames that
leave the message under assembly; or it ends as the machine on frames does. -/
inductive LoopSpec (ep : WsEndpoint) (pending : Option Gathered) (frames : List WireFrame) (more : Bytes)
    (result : EStateM.Result TransportExn WsEndpoint WsMessage) : Prop where
  | faulted {read unread : List WireFrame} {ep' : WsEndpoint} {fault : WriteFault}
      {pending' : Option Gathered} (split : frames = read ++ unread)
      (failing : some fault ∈ ep.sock.faults) (raised : result = .error (.osError fault.text) ep')
      (ws : ep'.ws = ep.ws) (memory : ep'.sock.memory = ep.sock.memory)
      (rest : ep'.sock.rest = WireFrame.stream unread ++ more)
      (passed : Passes pending read pending')
  | ended (read : List WireFrame) (ep' : WsEndpoint) (split : frames = read ++ (assemble pending frames).2)
      (advanced : Advanced ep ep' (pingPayloads read) (WireFrame.stream (assemble pending frames).2 ++ more))
      (ends : Ends (assemble pending frames).1 ep' result)

/-- A frame behind which the loop goes on. -/
theorem LoopSpec.cons {ep ep' : WsEndpoint} {pending pending' : Option Gathered} {frame : WireFrame}
    {frames : List WireFrame} {more rest : Bytes}
    {result : EStateM.Result TransportExn WsEndpoint WsMessage}
    (hadvanced : Advanced ep ep' (pingPayloads [frame]) rest) (honward : Onward pending frame pending')
    (h : LoopSpec ep' pending' frames more result) : LoopSpec ep pending (frame :: frames) more result := by
  rcases h with ⟨rfl, hfault, hraised, hws, hmemory, hrest, hpassed⟩ | ⟨read, ep'', hsplit, hadvanced', hends⟩
  · rw [hadvanced.faults] at hfault
    exact .faulted (List.cons_append ..).symm (List.mem_of_mem_drop hfault) hraised
      (hws.trans hadvanced.ws) (hmemory.trans hadvanced.memory) hrest (.cons honward hpassed)
  · have hpings : pingPayloads (frame :: read) = pingPayloads [frame] ++ pingPayloads read := by
      rw [pingPayloads, ← List.singleton_append, List.filter_append, List.map_append]
      rfl
    refine .ended (frame :: read) ep'' ?_ ?_ ?_
    · rw [honward.assemble, List.cons_append, ← hsplit]
    · rw [honward.assemble, hpings]
      exact hadvanced.trans hadvanced'
    · rw [honward.assemble]
      exact hends

/-- A frame at which the machine stops is the last that the loop reads. -/
theorem LoopSpec.last {ep ep' : WsEndpoint} {pending : Option Gathered} {frame : WireFrame}
    {frames : List WireFrame} {more : Bytes} {outcome : Outcome}
    {result : EStateM.Result TransportExn WsEndpoint WsMessage}
    (hadvanced : Advanced ep ep' (pingPayloads [frame]) (WireFrame.stream frames ++ more))
    (hassemble : assemble pending (frame :: frames) = (outcome, frames))
    (hends : Ends outcome ep' result) : LoopSpec ep pending (frame :: frames) more result := by
  apply LoopSpec.ended [frame] ep'
  · rw [hassemble]
    rfl
  · rw [hassemble]
    exact hadvanced
  · rw [hassemble]
    exact hends

/-- What a round does with a data frame. -/
theorem handleFrame_data (again : List Bytes → Option Opcode → WsM WsMessage) (chunks : List Bytes)
    (messageOpcode : Option Opcode) {frame : WsFrame} (hdata : frame.isData = true) :
    handleFrame again chunks messageOpcode frame =
      match messageOpcodeOf frame.opcode messageOpcode with
      | .error exn => throw exn
      | .ok messageOpcode =>
          if frame.fin then assembled messageOpcode (chunks ++ [frame.payload]).flatten
          else again (chunks ++ [frame.payload]) (some messageOpcode) := by
  rw [handleFrame]
  cases hopcode : frame.opcode with
  | cont => rfl
  | text => rfl
  | binary => rfl
  | close => simp [WsFrame.isData, hopcode, Opcode.isControl] at hdata
  | ping => simp [WsFrame.isData, hopcode, Opcode.isControl] at hdata
  | pong => simp [WsFrame.isData, hopcode, Opcode.isControl] at hdata

/-- The opcode that the loop finds for a data frame. -/
theorem messageOpcodeOf_data {pending : Option Gathered} {chunks : List Bytes}
    {messageOpcode : Option Opcode} (hholds : Holds pending chunks messageOpcode) {frame : WsFrame}
    (hdata : frame.isData = true) :
    (frame.effect pending = .orphan ∧ messageOpcodeOf frame.opcode messageOpcode =
      .error (.protocolError "continuation frame without a start")) ∨
    ∃ opcode, frame.effect pending = frame.extend opcode (WsFrame.gatheredData pending) ∧
      messageOpcodeOf frame.opcode messageOpcode = .ok opcode := by
  rw [hholds.opcode]
  rcases WsFrame.effect_data hdata pending with
    ⟨heffect, hcont, hnone⟩ | ⟨opcode, heffect, ⟨hcont, hpending⟩ | ⟨hown, rfl | rfl⟩⟩
  · left
    rw [hcont, hnone]
    exact ⟨hnone ▸ heffect, rfl⟩
  · right
    rw [hcont, hpending]
    exact ⟨opcode, heffect, rfl⟩
  · right
    rw [hown]
    exact ⟨.text, heffect, by cases pending <;> rfl⟩
  · right
    rw [hown]
    exact ⟨.binary, heffect, by cases pending <;> rfl⟩

theorem two_le_length_bytes (frame : WireFrame) : 2 ≤ frame.bytes.length := by
  rw [WireFrame.bytes, WireHeader.bytes]
  simp

/-- Reading a frame that is no ping calls for no answer. -/
theorem pingPayloads_other {frame : WireFrame} (h : frame.content.opcode ≠ .ping) :
    pingPayloads [frame] = [] := by
  rw [pingPayloads, List.filter_cons_of_neg (by rw [decide_eq_true_eq]; exact h)]
  rfl

theorem pingPayloads_ping {frame : WireFrame} (h : frame.content.opcode = .ping) :
    pingPayloads [frame] = [frame.payload] := by
  rw [pingPayloads, List.filter_cons_of_pos (by rw [decide_eq_true_eq]; exact h)]
  rfl

/-- A control frame is short. -/
theorem length_control {frame : WireFrame} (h : frame.content.opcode.isControl = true) :
    frame.content.payload.length < 126 := by
  have hfits := frame.header.fits
  rw [(frame.header.control h).2, ← frame.complete] at hfits
  exact hfits

/-- The loop refines the reassembly of whole frames. -/
theorem recvLoop_assemble (frames : List WireFrame) {more : Bytes} {pending : Option Gathered}
    {rounds : Nat} {chunks : List Bytes} {messageOpcode : Option Opcode} {ep : WsEndpoint}
    (hopen : ep.ws.closed = false) (hrest : ep.sock.rest = WireFrame.stream frames ++ more)
    (hserved : ∀ frame ∈ frames, frame.payload.length ≤ ep.sock.memory.largest)
    (hrounds : ep.sock.rest.length < rounds) (hholds : Holds pending chunks messageOpcode) :
    LoopSpec ep pending frames more (recvLoop rounds chunks messageOpcode ep) := by
  induction frames generalizing pending rounds chunks messageOpcode ep with
  | nil =>
      refine .ended [] ep rfl ⟨rfl, rfl, rfl, rfl, ?_, hrest⟩ ?_
      · exact ⟨[], (List.append_nil _).symm, rfl, by simp⟩
      · exact ⟨rounds, chunks, messageOpcode, hrounds, hholds, rfl⟩
  | cons frame frames ih =>
      rw [WireFrame.stream, List.flatMap_cons, List.append_assoc] at hrest
      obtain ⟨ep₁, hread, hadvanced⟩ := onSocket_readFrame hrest (hserved frame List.mem_cons_self)
      obtain ⟨rounds, rfl⟩ : ∃ fewer, rounds = fewer + 1 := ⟨rounds - 1, by omega⟩
      have hopen₁ : ep₁.ws.closed = false := hadvanced.ws ▸ hopen
      have hserved₁ : ∀ other ∈ frames, other.payload.length ≤ ep₁.sock.memory.largest := by
        intro other hother
        rw [hadvanced.memory]
        exact hserved other (List.mem_cons_of_mem _ hother)
      have hfewer : ep₁.sock.rest.length < rounds := by
        have hsize := two_le_length_bytes frame
        rw [hrest, List.length_append] at hrounds
        rw [hadvanced.rest]
        omega
      rw [recvLoop, StateExcept.bind_ok hread]
      by_cases hdata : frame.content.isData = true
      · have hping : frame.content.opcode ≠ .ping := by
          intro hping
          rw [WsFrame.isData, hping] at hdata
          cases hdata
        rw [← pingPayloads_other hping] at hadvanced
        rw [handleFrame_data _ _ _ hdata]
        rcases messageOpcodeOf_data hholds hdata with ⟨heffect, hopcode⟩ | ⟨opcode, heffect, hopcode⟩
        · have hassemble : assemble pending (frame :: frames) = (.orphan, frames) := by
            rw [assemble, heffect]
          apply LoopSpec.last hadvanced hassemble
          rw [hopcode]
          rfl
        · rw [WsFrame.extend] at heffect
          rw [hopcode]
          simp only
          by_cases hfin : frame.content.fin = true
          · rw [if_pos hfin] at heffect ⊢
            have hassemble : assemble pending (frame :: frames) = (.message
                { opcode, data := WsFrame.gatheredData pending ++ frame.content.payload }, frames) := by
              rw [assemble, heffect]
            apply LoopSpec.last hadvanced hassemble
            rw [(hholds.extend opcode frame.content.payload).data]
            rfl
          · rw [if_neg hfin] at heffect ⊢
            exact LoopSpec.cons hadvanced (.more hdata heffect) (ih hopen₁ hadvanced.rest hserved₁ hfewer
              (hholds.extend opcode frame.content.payload))
      · cases hopcode : frame.content.opcode with
        | ping =>
            have hshort := length_control (by rw [hopcode]; rfl)
            simp only [handleFrame, hopcode]
            rcases sendFrame_pong hopen₁ hshort with
              ⟨ep₂, hsend, hadvanced₂⟩ | ⟨ep₂, fault, hfault, hsend, hws, hmemory, hrest₂⟩
            · rw [StateExcept.bind_ok hsend]
              have hadvanced' := hadvanced.trans hadvanced₂
              rw [hadvanced.rest, List.nil_append] at hadvanced'
              refine LoopSpec.cons (pingPayloads_ping hopcode ▸ hadvanced') (.control (.inl hopcode))
                (ih (hadvanced'.ws ▸ hopen) hadvanced'.rest ?_ ?_ hholds)
              · rw [hadvanced₂.memory]
                exact hserved₁
              · rw [hadvanced₂.rest]
                exact hfewer
            · rw [StateExcept.bind_error hsend]
              rw [hadvanced.faults] at hfault
              have hpassed : Passes pending [frame] pending := .cons (.control (.inl hopcode)) .nil
              exact .faulted List.singleton_append.symm hfault rfl (hws.trans hadvanced.ws)
                (hmemory.trans hadvanced.memory) (hrest₂.trans hadvanced.rest) hpassed
        | pong =>
            simp only [handleFrame, hopcode]
            rw [← pingPayloads_other (by rw [hopcode]; decide)] at hadvanced
            exact LoopSpec.cons hadvanced (.control (.inr hopcode))
              (ih hopen₁ hadvanced.rest hserved₁ hfewer hholds)
        | close =>
            have heffect : frame.content.effect pending = .close := by
              rw [WsFrame.effect.eq_def, hopcode]
            have hassemble : assemble pending (frame :: frames) = (.close frame.payload, frames) := by
              rw [assemble, heffect]
            simp only [handleFrame, hopcode]
            rw [← pingPayloads_other (by rw [hopcode]; decide)] at hadvanced
            exact LoopSpec.last hadvanced hassemble rfl
        | cont => exact absurd (by rw [WsFrame.isData, hopcode]; rfl) hdata
        | text => exact absurd (by rw [WsFrame.isData, hopcode]; rfl) hdata
        | binary => exact absurd (by rw [WsFrame.isData, hopcode]; rfl) hdata

/-- A call of `recv` refines the reassembly of whole frames. -/
theorem recv_assemble (frames : List WireFrame) {more : Bytes} {ep : WsEndpoint}
    (hopen : ep.ws.closed = false) (hrest : ep.sock.rest = WireFrame.stream frames ++ more)
    (hserved : ∀ frame ∈ frames, frame.payload.length ≤ ep.sock.memory.largest) :
    LoopSpec ep none frames more (recv ep) := by
  have hrecv : recv ep = recvLoop (ep.sock.rest.length + 1) [] none ep := by
    rw [recv, StateExcept.get_bind, if_neg (by simp [hopen])]
  rw [hrecv]
  exact recvLoop_assemble frames hopen hrest hserved (Nat.lt_succ_self _) Holds.none

end WsEndpoint

end Priestly
