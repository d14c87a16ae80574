/-
Module: Priestly.Proofs.Direction
Layer: Proofs
Purpose: One direction of a connection between two honest ends of `cli/`: what one end writes in plain or
  sealed frames, the other takes off in the same order. `ChatClient.send` and `RegisteredClient.deliver` make
  the same frames, and `ChatClient.receive` and `_message_loop` both take them. As long as nothing else is on
  the wire, every frame gives its message back, whatever frames were lost before they were written. The text a
  message is sealed in is a parameter: the ends of `cli/` write it with `encode_message`.
Imports: Priestly.Cli.Room, Priestly.Proofs.Relay
Trusted boundary: the JSON round trip of payloads and frames is a hypothesis
Main exports: outgoing, Direction, Direction.seal, Direction.write, Direction.lose, Direction.next,
  Direction.take, Taken.receive, Taken.messageLoopBody
-/
import Priestly.Cli.Room
import Priestly.Proofs.Relay

namespace Priestly

open ByteCodec

/-! ### Making a frame -/

/-- The frame for a message, sealed if there is a session, and the session it leaves. -/
def outgoing (rt : Runtime) (session : Option SessionState) (text sender : String) :
    Except Exn Frame × Option SessionState :=
  match session with
  | none => (.ok (.chat text sender), none)
  | some session =>
      let (frame, session') := session.seal rt.hmac (encodeMessage rt text sender)
      (frame.map .sealed, some session')

section Making

variable (rt : Runtime) (text sender : String)

/-- The frame a session makes is the sealed one. -/
theorem outgoing_fst (session : SessionState) :
    (outgoing rt (some session) text sender).1 =
      (session.seal rt.hmac (encodeMessage rt text sender)).1.map .sealed := rfl

/-- Whatever comes of it, the counter moves. -/
@[simp] theorem outgoing_snd (session : SessionState) :
    (outgoing rt (some session) text sender).2 = some { session with txSeq := session.txSeq + 1 } :=
  congrArg some (SessionState.seal_snd session rt.hmac (encodeMessage rt text sender))

/-- A client writes such a frame. -/
theorem ChatClient.send_eq (client : ChatClient) :
    client.send rt text sender =
      ((outgoing rt client.session text sender).1,
        { client with session := (outgoing rt client.session text sender).2 }) := by
  obtain ⟨session, serverName, passwordRequired⟩ := client
  cases session with
  | none => rfl
  | some session => rfl

/-- The server writes such a frame to a client. -/
theorem RegisteredClient.deliver_eq (client : RegisteredClient) :
    client.deliver rt text sender =
      ((outgoing rt client.session text sender).1,
        { client with session := (outgoing rt client.session text sender).2 }) := by
  obtain ⟨name, session⟩ := client
  cases session with
  | none => rfl
  | some session => rfl

end Making

/-! ### Taking a frame -/

/-- An end with the session takes the message out of the frame, and is left with another session. -/
inductive Taken (rt : Runtime) :
    Option SessionState → Frame → String × String → Option SessionState → Prop where
  | plain {text sender : String} : Taken rt none (.chat text sender) (text, sender) none
  | secured {session session' : SessionState} {frame : SealedFrame} {plaintext : Bytes}
      {handed : String × String} (opens : session.open rt frame = (.ok plaintext, session'))
      (decodes : decodeMessage rt plaintext = .ok handed) :
      Taken rt (some session) (.sealed frame) handed (some session')

/-- Opening a frame moves the receive counter at most. -/
theorem SessionState.open_moves {rt : Runtime} {session session' : SessionState} {frame : SealedFrame}
    {result : Except Exn Bytes} (h : session.open rt frame = (result, session')) :
    ∃ n, session' = { session with rxSeq := n } := by
  have hsecond : session' = (session.open rt frame).2 := (congrArg Prod.snd h).symm
  rw [hsecond, SessionState.open]
  cases session.verify rt frame with
  | error exn => exact ⟨session.rxSeq, rfl⟩
  | ok body => exact ⟨frame.seq, rfl⟩

/-- The frame carries a message. -/
def Frame.IsMessage : Frame → Prop
  | .chat _ _ | .sealed _ => True
  | _ => False

/-- Only frames with messages are taken. -/
theorem Taken.isMessage {rt : Runtime} {session session' : Option SessionState} {frame : Frame}
    {handed : String × String} (h : Taken rt session frame handed session') : frame.IsMessage := by
  cases h with
  | plain => exact trivial
  | secured _ _ => exact trivial

/-- `receive` of a client whose end takes the frame. -/
theorem Taken.receive {rt : Runtime} {client : ChatClient} {frame : Frame} {handed : String × String}
    {session' : Option SessionState} (h : Taken rt client.session frame handed session')
    (hparse : parseMessage rt (wire rt frame) = .ok frame) :
    client.receive rt (wire rt frame) = (.ok handed, { client with session := session' }) := by
  obtain ⟨session, serverName, passwordRequired⟩ := client
  cases h with
  | plain =>
      rw [ChatClient.receive, hparse]
  | secured opens decodes =>
      simp only [ChatClient.receive, hparse, opens]
      rw [Except.bind, decodes]

/-- The message loop of a client whose end takes the frame. -/
theorem Taken.messageLoopBody {rt : Runtime} {client : RegisteredClient} {frame : Frame}
    {handed : String × String} {session' : Option SessionState}
    (h : Taken rt client.session frame handed session') {message : WsMessage}
    (hparse : parseMessage rt message = .ok frame) :
    messageLoopBody rt client message =
      (.ok (.broadcast handed.1 (senderOr handed.2 client.name)), { client with session := session' }) := by
  obtain ⟨name, session⟩ := client
  cases h with
  | plain =>
      rw [Priestly.messageLoopBody, hparse]
  | secured opens decodes =>
      simp only [Priestly.messageLoopBody, hparse, opens]
      rw [Except.bind, decodes]

/-! ### One direction -/

/-- `encode_message`, of a message. -/
def encoding (rt : Runtime) (message : String × String) : Bytes := encodeMessage rt message.1 message.2

/-- The payloads of `encode_message` give their messages back. -/
theorem decodeMessage_encoding {rt : Runtime} (hjson : JsonRoundTrip rt) (message : String × String) :
    decodeMessage rt (encoding rt message) = .ok message := decodeMessage_encodeMessage hjson _ _

/-- The frame is the sealed one, and the plaintext the encoded message. -/
def Letter.Encloses (code : String × String → Bytes) (letter : Letter) (sealedPair : Bytes × SealedFrame) :
    Prop :=
  letter.2 = .sealed sealedPair.2 ∧ sealedPair.1 = code letter.1

/-- The letters are what the writing end has written, and the reading end has read the first of them: on an open
connection they are plain frames; on a sealed one the writer has sealed them under increasing numbers, and the
reader has the key, and has not come further than the letters it has read. -/
inductive Direction (rt : Runtime) (code : String × String → Bytes) :
    Option SessionState → Option SessionState → List Letter → Nat → Prop where
  | plain {letters : List Letter} {count : Nat}
      (frames : ∀ letter ∈ letters, letter.2 = .chat letter.1.1 letter.1.2) :
      Direction rt code none none letters count
  | secured {writer reader base : SessionState} {sent : List (Bytes × SealedFrame)} {letters : List Letter}
      {count : Nat} (sends : Endpoint.Sends rt base ⟨writer, sent, []⟩)
      (facing : reader.rxDir = base.txDir ∧ reader.rxMac = base.txMac)
      (encloses : List.Forall₂ (Letter.Encloses code) letters sent)
      (unread : ∀ entry ∈ sent.drop count, reader.rxSeq < entry.2.seq) (behind : reader.rxSeq ≤ writer.txSeq) :
      Direction rt code (some writer) (some reader) letters count

namespace Direction

variable {rt : Runtime} {code : String × String → Bytes} {writer reader writer' reader' : Option SessionState}
  {letters : List Letter} {count : Nat}

/-- Two sessions made from one set of keys, before anything is written. -/
theorem start (keys : SessionKeys) (isClient compress compress' : Bool) :
    Direction rt code (some (.new keys isClient compress)) (some (.new keys (!isClient) compress')) [] 0 := by
  refine .secured (Endpoint.sends_start keys isClient compress) ?_ .nil ?_ (le_refl 0)
  · cases isClient with
    | false => exact ⟨rfl, rfl⟩
    | true => exact ⟨rfl, rfl⟩
  · intro entry hentry
    cases hentry

/-- An open connection, before anything is written. -/
theorem start_plain : Direction rt code none none [] 0 := by
  apply Direction.plain
  intro letter hletter
  cases hletter

/-- A letter that was sealed is written. -/
theorem «seal» {session : SessionState} (h : Direction rt code (some session) reader letters count)
    (hcount : count ≤ letters.length) {message : String × String} {frame : SealedFrame}
    (hseal : (session.seal rt.hmac (code message)).1 = .ok frame) :
    Direction rt code (some { session with txSeq := session.txSeq + 1 }) reader
      (letters ++ [(message, .sealed frame)]) count := by
  cases h with
  | @secured _ reader base sent letters count sends facing encloses unread behind =>
      have hseq : frame.seq = session.txSeq + 1 := (sends.seals_of_seal hseal).1
      refine .secured (sends.record hseal) facing (List.rel_append encloses (.cons ⟨rfl, rfl⟩ .nil)) ?_ ?_
      · have hlength : count ≤ sent.length := encloses.length_eq ▸ hcount
        intro entry hentry
        rw [List.drop_append_of_le_length hlength] at hentry
        rcases List.mem_append.mp hentry with hold | hnew
        · exact unread entry hold
        · rw [List.mem_singleton.mp hnew, hseq]
          omega
      · exact Int.le_add_one behind

/-- A letter in the clear is written. -/
theorem chat (h : Direction rt code none reader letters count) (text sender : String) :
    Direction rt code none reader (letters ++ [((text, sender), .chat text sender)]) count := by
  cases h with
  | plain frames =>
      apply Direction.plain
      intro letter hletter
      rcases List.mem_append.mp hletter with hold | hnew
      · exact frames letter hold
      · rw [List.mem_singleton.mp hnew]

/-- A frame that was made is written. -/
theorem write (h : Direction rt (encoding rt) writer reader letters count) (hcount : count ≤ letters.length)
    {text sender : String} {frame : Frame} (hframe : (outgoing rt writer text sender).1 = .ok frame) :
    Direction rt (encoding rt) (outgoing rt writer text sender).2 reader (letters ++ [((text, sender), frame)])
      count := by
  cases writer with
  | none =>
      obtain rfl := Except.ok.inj hframe
      exact h.chat text sender
  | some session =>
      rw [outgoing_fst] at hframe
      cases hseal : (session.seal rt.hmac (encodeMessage rt text sender)).1 with
      | ok sealedFrame =>
          rw [hseal] at hframe
          obtain rfl := Except.ok.inj hframe
          rw [outgoing_snd]
          exact @«seal» rt (encoding rt) reader letters count session h hcount (text, sender) _ hseal
      | error exn =>
          rw [hseal] at hframe
          cases hframe

/-- A frame is made, or not, and nothing is written; the counter moves. -/
theorem lose (h : Direction rt code writer reader letters count) (text sender : String) :
    Direction rt code (outgoing rt writer text sender).2 reader letters count := by
  cases h with
  | plain frames => exact .plain frames
  | @secured session reader base sent letters count sends facing encloses unread behind =>
      rw [outgoing_snd]
      exact .secured sends.advance facing encloses unread (Int.le_add_one behind)

/-- The next letter: a plain one, or one that the session of the writing end has sealed under a number that the
reading end has not seen. -/
inductive Next (rt : Runtime) (code : String × String → Bytes) :
    Option SessionState → Option SessionState → Letter → Option SessionState → Prop where
  | plain {text sender : String} : Next rt code none none ((text, sender), .chat text sender) none
  | secured {writer reader base : SessionState} {message : String × String} {frame : SealedFrame}
      (continues : writer = { base with txSeq := writer.txSeq, rxSeq := writer.rxSeq })
      (seals : base.Seals rt.hmac (code message) frame)
      (facing : reader.rxDir = base.txDir ∧ reader.rxMac = base.txMac) (range : 0 < frame.seq)
      (new : reader.rxSeq < frame.seq) :
      Next rt code (some writer) (some reader) (message, .sealed frame) (some { reader with rxSeq := frame.seq })

/-- The next letter is read. -/
theorem next (h : Direction rt code writer reader letters count) {letter : Letter}
    (hnext : letters[count]? = some letter) :
    ∃ reader', Next rt code writer reader letter reader' ∧
      Direction rt code writer reader' letters (count + 1) := by
  obtain ⟨message, frame⟩ := letter
  cases h with
  | plain frames =>
      obtain rfl : frame = .chat message.1 message.2 := frames _ (List.mem_of_getElem? hnext)
      exact ⟨none, .plain, .plain frames⟩
  | @secured session reader base sent letters count sends facing encloses unread behind =>
      obtain ⟨hlt, hletter⟩ := List.getElem?_eq_some_iff.mp hnext
      have hlt' : count < sent.length := encloses.length_eq ▸ hlt
      obtain ⟨hframe, hplaintext⟩ : Letter.Encloses code (message, frame) sent[count] := by
        have := List.Forall₂.get encloses hlt hlt'
        rw [List.get_eq_getElem, List.get_eq_getElem, hletter] at this
        exact this
      obtain rfl : frame = .sealed sent[count].2 := hframe
      have hsplit : sent.drop count = sent[count] :: sent.drop (count + 1) := List.drop_eq_getElem_cons hlt'
      have hmem : sent[count] ∈ sent := List.getElem_mem hlt'
      have hseals := sends.seals _ hmem
      rw [hplaintext] at hseals
      refine ⟨some { reader with rxSeq := sent[count].2.seq },
        .secured sends.session hseals facing (sends.range _ hmem).1 (unread _ (hsplit ▸ List.mem_cons_self)), ?_⟩
      refine .secured sends facing encloses ?_ (sends.range _ hmem).2
      have hincreasing := sends.increasing.sublist (List.drop_sublist count sent)
      rw [hsplit] at hincreasing
      exact (List.pairwise_cons.mp hincreasing).1

/-- An end that can decode the message takes it off. -/
theorem Next.taken {letter : Letter} (h : Next rt code writer reader letter reader')
    (hcode : decodeMessage rt (code letter.1) = .ok letter.1) : Taken rt reader letter.2 letter.1 reader' := by
  cases h with
  | plain => exact .plain
  | @secured writer reader base message frame continues seals facing range new =>
      obtain ⟨body, hverify, hunpack⟩ := seals.verify seals.carries_self facing.1 facing.2 new
      refine .secured ?_ hcode
      rw [SessionState.open_of_verify_ok hverify, hunpack]

/-- The next letter is taken off, and gives its message back. -/
theorem take (h : Direction rt code writer reader letters count)
    (hcode : ∀ message, decodeMessage rt (code message) = .ok message) {letter : Letter}
    (hnext : letters[count]? = some letter) :
    ∃ reader', Taken rt reader letter.2 letter.1 reader' ∧
      Direction rt code writer reader' letters (count + 1) := by
  obtain ⟨reader', hletter, hrest⟩ := h.next hnext
  exact ⟨reader', hletter.taken (hcode letter.1), hrest⟩

/-- What the writing end accepts from the other direction does not disturb this one. -/
theorem writer_accepts {session : SessionState} (h : Direction rt code (some session) reader letters count)
    (n : Int) : Direction rt code (some { session with rxSeq := n }) reader letters count := by
  cases h with
  | secured sends facing encloses unread behind =>
      exact .secured (sends.receive n []) facing encloses unread behind

/-- What the writing end takes off the other direction does not disturb this one. -/
theorem writer_reads (h : Direction rt code writer reader letters count) {frame : Frame}
    {handed : String × String} (htaken : Taken rt writer frame handed writer') :
    Direction rt code writer' reader letters count := by
  cases htaken with
  | plain => exact h
  | secured opens decodes =>
      obtain ⟨n, rfl⟩ := SessionState.open_moves opens
      exact h.writer_accepts n

/-- What the reading end writes into the other direction does not disturb this one. -/
theorem reader_writes (h : Direction rt code writer reader letters count) (text sender : String) :
    Direction rt code writer (outgoing rt reader text sender).2 letters count := by
  cases h with
  | plain frames => exact .plain frames
  | @secured session reader base sent letters count sends facing encloses unread behind =>
      rw [outgoing_snd]
      exact .secured sends facing encloses unread behind

end Direction

end Priestly
