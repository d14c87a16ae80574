/-
Module: Priestly.Proofs.MessageLoop
Layer: Proofs
Purpose: Which messages the chat server's loop survives. Every call on the way from the wire text to the
  chat message either raises one of the exceptions the loop catches or is ruled out by a condition on
  the message; the loop answers a bad message exactly under these conditions.
Imports: Priestly.Cli.Hub, Priestly.Proofs.HuffmanDecoding, Priestly.Proofs.Session,
  Priestly.Python.SampleRuntime
Trusted boundary: none
Main exports: Caught, caught_open_decode_iff, Hub.Survives, message_loop_survives_iff
-/
import Priestly.Cli.Hub
import Priestly.Proofs.HuffmanDecoding
import Priestly.Proofs.Session
import Priestly.Python.SampleRuntime

namespace Priestly

open ByteCodec

/-! ### Exceptions the loop catches -/

/-- The computation raises nothing but what the loop answers as a bad frame. -/
def Caught {α : Type} (result : Except Exn α) : Prop :=
  ∀ exn, result = .error exn → exn.isBadFrame = true

section Caught

variable {α β : Type}

@[simp] theorem caught_ok (value : α) : Caught (.ok value : Except Exn α) := by
  intro exn h
  cases h

@[simp] theorem caught_error (exn : Exn) :
    Caught (.error exn : Except Exn α) ↔ exn.isBadFrame = true := by
  constructor
  · intro h
    exact h exn rfl
  · rintro h _ ⟨⟩
    exact h

/-- A sequence raises what its first part raises and then what its second part does. -/
theorem caught_bind (first : Except Exn α) (f : α → Except Exn β) :
    Caught (first >>= f) ↔ Caught first ∧ ∀ value, first = .ok value → Caught (f value) := by
  cases first with
  | error exn => simp
  | ok value => simp

theorem caught_if {p : Prop} [Decidable p] (a b : Except Exn α) :
    Caught (if p then a else b) ↔ (p → Caught a) ∧ (¬ p → Caught b) := by
  by_cases h : p
  · simp [h]
  · simp [h]

end Caught

/-! ### One call at a time -/

/-- Unpacking raises what the loop catches unless the body is marked as compressed and is no blob of the
compressor. -/
theorem caught_unpack_iff (body : Bytes) : Caught (unpack body) ↔
    ∀ blob, body = huffmanMarker :: blob → ∃ plaintext, Huffman.decompress blob = .ok plaintext := by
  cases body with
  | nil => simp [unpack, Exn.isBadFrame]
  | cons marker blob =>
      rw [unpack, caught_if, caught_if]
      constructor
      · rintro ⟨hcompressed, _⟩ blob' heq
        obtain ⟨rfl, rfl⟩ := List.cons.inj heq
        cases hblob : Huffman.decompress blob with
        | ok plaintext => exact ⟨plaintext, rfl⟩
        | error exn =>
            obtain ⟨text, rfl⟩ := Huffman.decompress_eq_error hblob
            cases hcompressed rfl _ hblob
      · intro h
        refine ⟨?_, fun _ => ⟨fun _ => caught_ok blob, fun _ => ?_⟩⟩
        · intro hmarker
          obtain ⟨plaintext, hok⟩ := h blob (by rw [hmarker])
          rw [hok]
          exact caught_ok plaintext
        · simp [Exn.isBadFrame]

section Payload

variable {rt : Runtime}

theorem caught_messageFields_iff (value : Json) : Caught (messageFields rt value) ↔
    match value with
    | .object entries => FieldsAnswerable rt entries
    | _ => False := by
  cases value with
  | object entries =>
      simp only [messageFields, caught_bind, FieldsAnswerable]
      constructor
      · rintro ⟨htext, hsender⟩ exn (herror | ⟨⟨text, hok⟩, herror⟩)
        · exact htext exn herror
        · exact (hsender text hok).1 exn herror
      · intro h
        refine ⟨fun exn herror => h exn (.inl herror), ?_⟩
        intro text hok
        exact ⟨fun exn herror => h exn (.inr ⟨⟨text, hok⟩, herror⟩), fun sender _ => caught_ok _⟩
  | _ => simp [messageFields, Exn.isBadFrame, Exn.isValueError]

theorem caught_decodeMessage_iff (plaintext : Bytes) :
    Caught (decodeMessage rt plaintext) ↔ PlaintextAnswerable rt plaintext := by
  rw [decodeMessage, caught_bind, PlaintextAnswerable, Runtime.decode]
  cases hdecode : utf8Decode plaintext with
  | none => simp [Exn.isBadFrame, Exn.isValueError]
  | some text =>
      simp only [caught_ok, true_and, Except.ok.injEq, forall_eq', Option.some.injEq]
      rw [caught_bind]
      cases hjson : rt.jsonLoads text with
      | error exn => simp
      | ok value =>
          simp only [caught_ok, true_and, Except.ok.injEq, forall_eq', caught_messageFields_iff]
          cases value <;> rfl

theorem caught_unpack_decode_iff (body : Bytes) :
    Caught (unpack body >>= decodeMessage rt) ↔ BodyAnswerable rt body := by
  rw [caught_bind, caught_unpack_iff, BodyAnswerable]
  simp only [caught_decodeMessage_iff]

end Payload

/-! ### Opening a frame -/

section Opening

variable {rt : Runtime} {session : SessionState} {frame : SealedFrame}

/-- Opening and decoding a frame raises nothing but what the loop catches exactly when the frame is
answerable. -/
theorem caught_open_decode_iff : Caught ((session.open rt frame).1 >>= decodeMessage rt) ↔
    SealedAnswerable rt session frame := by
  have hresult := session.open_result rt frame
  generalize session.open rt frame = result at hresult ⊢
  constructor
  · intro h body hdir hdecode
    have haddressed : session.Addressed frame body := ⟨hdir, hdecode⟩
    cases hresult with
    | misdirected text direction => exact absurd hdir direction
    | undecodable text payload => cases hdecode.symm.trans payload
    | headerOverflow text _ _ => cases (caught_error _).mp h
    | unreadableTag text _ _ _ => cases (caught_error _).mp h
    | forged text addressed input readable tag =>
        obtain rfl := haddressed.body_eq addressed
        obtain ⟨hepoch, hseq, _⟩ := tagMessage_eq_ok input
        refine ⟨hepoch, hseq, readable, ?_⟩
        intro message hmessage htag
        obtain rfl := Except.ok.inj (input.symm.trans hmessage)
        exact absurd htag tag
    | stale text addressed input tag seq =>
        obtain rfl := haddressed.body_eq addressed
        obtain ⟨hepoch, hseq, _⟩ := tagMessage_eq_ok input
        refine ⟨hepoch, hseq, tag ▸ isAscii_sign _ _ _, ?_⟩
        intro message _ _ hfresh
        exact absurd hfresh (Int.not_lt.mpr seq)
    | verified addressed input tag seq =>
        obtain rfl := haddressed.body_eq addressed
        obtain ⟨hepoch, hseq, _⟩ := tagMessage_eq_ok input
        refine ⟨hepoch, hseq, tag ▸ isAscii_sign _ _ _, ?_⟩
        intro message _ _ _
        exact (caught_unpack_decode_iff body).mp h
  · intro h
    cases hresult with
    | misdirected text _ => exact (caught_error _).mpr rfl
    | undecodable text _ => exact (caught_error _).mpr rfl
    | headerOverflow text addressed header =>
        obtain ⟨hepoch, hseq, _⟩ := h _ addressed.1 addressed.2
        exact absurd ⟨hepoch, hseq⟩ header
    | unreadableTag text addressed _ tag =>
        obtain ⟨_, _, hascii, _⟩ := h _ addressed.1 addressed.2
        rw [tag] at hascii
        cases hascii
    | forged text _ _ _ _ => exact (caught_error _).mpr rfl
    | stale text _ _ _ _ => exact (caught_error _).mpr rfl
    | @verified body message addressed input tag seq =>
        obtain ⟨_, _, _, hgenuine⟩ := h _ addressed.1 addressed.2
        exact (caught_unpack_decode_iff body).mpr (hgenuine message input tag seq)

end Opening

/-! ### One pass of the loop -/

section Pass

variable {rt : Runtime} {client : RegisteredClient} {message : WsMessage}

/-- A packet that is no sealed frame is answerable. -/
theorem answerable_of_not_sealed {frame : Frame} (hparse : parseMessage rt message = .ok frame)
    (h : ∀ sealedFrame, frame ≠ .sealed sealedFrame) : Answerable rt client message :=
  ⟨frame, hparse, fun sealedFrame _ heq => absurd heq (h sealedFrame)⟩

/-- A sealed frame on an authenticated connection is answerable when opening and decoding it raises
nothing the loop does not catch. -/
theorem answerable_sealed_iff {frame : SealedFrame} {session : SessionState}
    (hparse : parseMessage rt message = .ok (.sealed frame))
    (hsession : client.session = some session) : Answerable rt client message ↔
      Caught ((session.open rt frame).1 >>= decodeMessage rt) := by
  rw [caught_open_decode_iff]
  constructor
  · rintro ⟨other, hother, h⟩
    obtain rfl := Except.ok.inj (hparse.symm.trans hother)
    exact h frame session rfl hsession
  · intro h
    refine ⟨_, hparse, ?_⟩
    intro other session' hother hsession'
    obtain rfl := Frame.sealed.inj hother
    obtain rfl := Option.some.inj (hsession.symm.trans hsession')
    exact h

/-- A sealed frame on an authenticated connection is acceptable when it opens and decodes. -/
theorem acceptable_sealed_iff {frame : SealedFrame} {session : SessionState}
    (hparse : parseMessage rt message = .ok (.sealed frame))
    (hsession : client.session = some session) : Acceptable rt client message ↔
      ∃ handed, (session.open rt frame).1 >>= decodeMessage rt = .ok handed := by
  constructor
  · rintro (⟨_, _, hchat, _⟩ | ⟨other, session', _, handed, hother, hsome, hopen, hdecode⟩)
    · rw [hparse] at hchat
      cases hchat
    · obtain rfl := Frame.sealed.inj (Except.ok.inj (hparse.symm.trans hother))
      obtain rfl := Option.some.inj (hsession.symm.trans hsome)
      exact ⟨handed, by rw [hopen, ok_bind, hdecode]⟩
  · rintro ⟨handed, hresult⟩
    obtain ⟨plaintext, hopen, hdecode⟩ := bind_eq_ok hresult
    exact .inr ⟨frame, session, plaintext, handed, hparse, hsession, hopen, hdecode⟩

/-- Plain text on an authenticated connection, sealed frames on another one and all other packets are not
acceptable. -/
theorem not_acceptable
    (hchat : ∀ text sender, parseMessage rt message = .ok (.chat text sender) → client.session ≠ none)
    (hsealed : ∀ frame, parseMessage rt message = .ok (.sealed frame) → client.session = none) :
    ¬ Acceptable rt client message := by
  rintro (⟨text, sender, hparse, hnone⟩ | ⟨frame, session, _, _, hparse, hsome, _⟩)
  · exact hchat text sender hparse hnone
  · rw [hsealed frame hparse] at hsome
    cases hsome

/-- How a pass ends: it raises on a message that is not answerable, writes one error frame back for an
answerable message that is not acceptable, and broadcasts an acceptable one. -/
inductive BodyEnds (rt : Runtime) (client : RegisteredClient) (message : WsMessage) : Prop where
  | raises {exn : Exn} {client' : RegisteredClient}
      (body : messageLoopBody rt client message = (.error exn, client'))
      (unanswerable : ¬ Answerable rt client message)
  | replies {code : Int} {reason : String} {client' : RegisteredClient}
      (body : messageLoopBody rt client message = (.ok (.reply (.error code reason)), client'))
      (answerable : Answerable rt client message) (unacceptable : ¬ Acceptable rt client message)
  | broadcasts {text sender : String} {client' : RegisteredClient}
      (body : messageLoopBody rt client message = (.ok (.broadcast text sender), client'))
      (answerable : Answerable rt client message) (acceptable : Acceptable rt client message)

/-- A pass over a sealed frame on an authenticated connection. -/
theorem bodyEnds_sealed {frame : SealedFrame} {session : SessionState}
    (hparse : parseMessage rt message = .ok (.sealed frame)) (hsession : client.session = some session) :
    BodyEnds rt client message := by
  have hanswerable := answerable_sealed_iff hparse hsession
  have hacceptable := acceptable_sealed_iff hparse hsession
  cases hresult : (session.open rt frame).1 >>= decodeMessage rt with
  | ok handed =>
      have hbind : ((session.open rt frame).1.bind (decodeMessage rt)) = .ok handed := hresult
      apply BodyEnds.broadcasts
      · simp only [messageLoopBody, hparse, hsession, hbind]
        rfl
      · rw [hanswerable, hresult]
        exact caught_ok handed
      · exact hacceptable.mpr ⟨handed, hresult⟩
  | error exn =>
      have hbind : ((session.open rt frame).1.bind (decodeMessage rt)) = .error exn := hresult
      rw [hresult, caught_error] at hanswerable
      by_cases hcaught : exn.isBadFrame = true
      · apply BodyEnds.replies
        · simp only [messageLoopBody, hparse, hsession, hbind, hcaught, if_true]
          rfl
        · exact hanswerable.mpr hcaught
        · rw [hacceptable]
          rintro ⟨handed, hhanded⟩
          cases hhanded.symm.trans hresult
      · apply BodyEnds.raises
        · simp only [messageLoopBody, hparse, hsession, hbind, hcaught]
          rfl
        · exact fun h => hcaught (hanswerable.mp h)

/-- Every pass ends in one of the three ways. -/
theorem messageLoopBody_cases (rt : Runtime) (client : RegisteredClient) (message : WsMessage) :
    BodyEnds rt client message := by
  cases hparse : parseMessage rt message with
  | error exn =>
      apply BodyEnds.raises
      · rw [messageLoopBody, hparse]
      · rintro ⟨frame, hframe, _⟩
        cases hparse.symm.trans hframe
  | ok frame =>
      cases frame with
      | «sealed» frame =>
          cases hsession : client.session with
          | none =>
              apply BodyEnds.replies
              · simp only [messageLoopBody, hparse, hsession]
                rfl
              · refine ⟨_, hparse, ?_⟩
                intro _ session _ hsome
                cases hsession.symm.trans hsome
              · apply not_acceptable
                · intro _ _ hchat
                  cases hparse.symm.trans hchat
                · exact fun _ _ => hsession
          | some session => exact bodyEnds_sealed hparse hsession
      | chat text sender =>
          have hanswerable : Answerable rt client message :=
            answerable_of_not_sealed hparse fun _ heq => by cases heq
          cases hsession : client.session with
          | none =>
              apply BodyEnds.broadcasts
              · simp only [messageLoopBody, hparse, hsession]
                rfl
              · exact hanswerable
              · exact .inl ⟨text, sender, hparse, hsession⟩
          | some session =>
              apply BodyEnds.replies
              · simp only [messageLoopBody, hparse, hsession]
                rfl
              · exact hanswerable
              · apply not_acceptable
                · intro _ _ _ hnone
                  cases hsession.symm.trans hnone
                · intro _ hsealed
                  cases hparse.symm.trans hsealed
      | _ =>
          apply BodyEnds.replies
          · simp only [messageLoopBody, hparse]
            rfl
          · exact answerable_of_not_sealed hparse fun _ heq => by cases heq
          · apply not_acceptable
            · intro _ _ hchat
              cases hparse.symm.trans hchat
            · intro _ hsealed
              cases hparse.symm.trans hsealed

end Pass

/-! ### The loop among the other threads -/

namespace Hub

open Function

variable {rt : Runtime} {s s' : Hub} {i : Nat} {message : WsMessage}

/-- The loop of a connection survives a message it receives: it does not end with an exception of its
own, and when the message is not acceptable it writes exactly one error frame back, to no other socket,
starts no broadcast, leaves the registry alone, and waits for the next message, unless the socket fails
under the write. -/
structure Survives (rt : Runtime) (s : Hub) (i : Nat) (message : WsMessage) : Prop where
  continues : ∀ s', HubStep rt (.receive i message) s s' →
    ∀ exn, s'.thread i ≠ .leaving (.raised exn)
  answers : ¬ Acceptable rt (s.client i) message → ∀ s', HubStep rt (.receive i message) s s' →
    s'.registry = s.registry ∧ s'.broadcasts = s.broadcasts ∧
      ((∃ code reason,
          s'.written = update s.written i (s.written i ++ [.reply (.error code reason)]) ∧
          s'.thread = s.thread) ∨
        (s.broken i = true ∧ s'.written = s.written ∧
          s'.thread = update s.thread i (.leaving .socketFailed)))

/-- Exactly the answerable messages are survived. -/
theorem survives_iff (hlooping : s.thread i = .looping) :
    s.Survives rt i message ↔ Answerable rt (s.client i) message := by
  rcases messageLoopBody_cases rt (s.client i) message with
    ⟨hbody, hbad⟩ | ⟨hbody, hgood, hreject⟩ | ⟨hbody, hgood, haccept⟩
  · constructor
    · intro h
      exact absurd (update_self i _ s.thread) (h.continues _ (.crash hlooping hbody) _)
    · intro h
      exact absurd h hbad
  · refine ⟨fun _ => hgood, fun _ => ⟨?_, ?_⟩⟩
    · intro s' hstep exn
      cases hstep with
      | reply _ _ _ =>
          rw [hlooping]
          exact nofun
      | replyFails _ _ _ =>
          show update s.thread i (.leaving .socketFailed) i ≠ _
          rw [update_self]
          exact nofun
      | crash _ body => cases hbody.symm.trans body
      | broadcast _ body _ => cases hbody.symm.trans body
    · intro _ s' hstep
      cases hstep with
      | reply _ body _ =>
          cases hbody.symm.trans body
          exact ⟨rfl, rfl, .inl ⟨_, _, rfl, rfl⟩⟩
      | replyFails _ body failed => exact ⟨rfl, rfl, .inr ⟨failed, rfl, rfl⟩⟩
      | crash _ body => cases hbody.symm.trans body
      | broadcast _ body _ => cases hbody.symm.trans body
  · refine ⟨fun _ => hgood, fun _ => ⟨?_, fun hreject => absurd haccept hreject⟩⟩
    intro s' hstep exn
    cases hstep with
    | reply _ body _ => cases hbody.symm.trans body
    | replyFails _ body _ => cases hbody.symm.trans body
    | crash _ body => cases hbody.symm.trans body
    | @broadcast _ _ _ _ _ _ todo _ _ _ =>
        show update s.thread i (.broadcasting s.broadcasts.length todo) i ≠ _
        rw [update_self]
        exact nofun

/-- Every message is answerable for the connection that receives it. -/
def AnswerableReceipts (rt : Runtime) (s : Hub) : HubEvent → Prop
  | .receive i message => Answerable rt (s.client i) message
  | _ => True

/-- The thread has not ended with an exception of the loop. -/
def Unraised (thread : Thread) : Prop :=
  ∀ exn, thread ≠ .leaving (.raised exn) ∧ thread ≠ .ended (.raised exn)

/-- A thread in its loop has not ended. -/
theorem unraised_looping : Unraised .looping := fun _ => ⟨Thread.noConfusion, Thread.noConfusion⟩

/-- Neither has a thread that serves a broadcast. -/
theorem unraised_broadcasting (number : Nat) (todo : List Nat) : Unraised (.broadcasting number todo) :=
  fun _ => ⟨Thread.noConfusion, Thread.noConfusion⟩

/-- Neither has a thread that drops a client. -/
theorem unraised_dropping (recipient number : Nat) (todo : List Nat) :
    Unraised (.dropping recipient number todo) :=
  fun _ => ⟨Thread.noConfusion, Thread.noConfusion⟩

/-- A thread whose socket has failed leaves without an exception of the loop. -/
theorem unraised_socketFailed : Unraised (.leaving .socketFailed) := by
  intro exn
  refine ⟨?_, Thread.noConfusion⟩
  intro hsame
  cases hsame

/-- A thread ends as it leaves. -/
theorem unraised_ended {ending : Ending} (h : Unraised (.leaving ending)) : Unraised (.ended ending) := by
  intro exn
  refine ⟨Thread.noConfusion, ?_⟩
  intro hsame
  cases hsame
  exact (h exn).1 rfl

/-- One thread moves without an exception. -/
theorem unraised_update {thread : Nat → Thread} (h : ∀ j, Unraised (thread j)) {next : Thread}
    (hnext : Unraised next) (j : Nat) : Unraised (update thread i next j) := by
  by_cases hji : j = i
  · rw [hji, update_self]
    exact hnext
  · rw [update_of_ne hji]
    exact h j

/-- A step in which a received message is answerable ends no thread with an exception. -/
theorem unraised_step {event : HubEvent} (h : ∀ j, Unraised (s.thread j))
    (hstep : HubStep rt event s s') (hok : AnswerableReceipts rt s event) (j : Nat) :
    Unraised (s'.thread j) := by
  cases hstep with
  | join _ _ => exact unraised_update h unraised_looping j
  | reply _ _ _ => exact h j
  | replyFails _ _ _ => exact unraised_update h unraised_socketFailed j
  | crash looping body =>
      rcases messageLoopBody_cases rt (s.client _) _ with ⟨_, hbad⟩ | ⟨hbody, _⟩ | ⟨hbody, _⟩
      · exact absurd hok hbad
      · cases hbody.symm.trans body
      · cases hbody.symm.trans body
  | broadcast _ _ _ => exact unraised_update h (unraised_broadcasting _ _) j
  | receiveFails _ => exact unraised_update h unraised_socketFailed j
  | deliver _ _ _ _ => exact unraised_update h (unraised_broadcasting _ _) j
  | deliverFails _ _ _ _ => exact unraised_update h (unraised_dropping _ _ _) j
  | drop _ => exact unraised_update h (unraised_broadcasting _ _) j
  | finish _ => exact unraised_update h unraised_looping j
  | leave going => exact unraised_update h (unraised_ended (going ▸ h _)) j
  | breaks => exact h j

/-- In a run whose messages are all answerable, threads end only when their socket fails. -/
theorem Run.unraised (h : Run rt (AnswerableReceipts rt) s) (j : Nat) : Unraised (s.thread j) := by
  induction h generalizing j with
  | start => exact fun _ => ⟨nofun, nofun⟩
  | step _ ok hstep ih => exact unraised_step ih hstep ok j

end Hub

/-- The message loop of a connection survives a message exactly when the message is answerable for the
connection, whatever the other threads do; and in every run in which all received messages are
answerable, no thread leaves its loop but for a socket that fails. -/
theorem message_loop_survives_iff (rt : Runtime) :
    (∀ (s : Hub) (i : Nat) (message : WsMessage), s.thread i = .looping →
      (s.Survives rt i message ↔ Answerable rt (s.client i) message)) ∧
    ∀ s, Hub.Run rt (Hub.AnswerableReceipts rt) s → ∀ i, Hub.Unraised (s.thread i) :=
  ⟨fun _ _ _ hlooping => Hub.survives_iff hlooping, fun _ hrun i => hrun.unraised i⟩

/-! ### A server with one connection -/

/-- An open node with one client. -/
def oneClient : Hub :=
  { Hub.start with
    client := Function.update Hub.start.client 0 { name := "user1", session := none }
    thread := Function.update Hub.start.thread 0 .looping
    registry := [0] }

theorem oneClient_joins (rt : Runtime) :
    HubStep rt (.join 0 { name := "user1", session := none }) .start oneClient :=
  .join rfl (.inl rfl)

/-- A verdict of the handshake is answered as an unexpected frame. -/
theorem message_loop_survives_authFail :
    oneClient.Survives (sampleRuntime hmacSha256) 0 (wire (sampleRuntime hmacSha256) (.authFail "no")) ∧
      Hub.Unraised (oneClient.thread 0) := by
  have hparse : parseMessage (sampleRuntime hmacSha256)
      (wire (sampleRuntime hmacSha256) (.authFail "no")) = .ok (.authFail "no") :=
    @loads_dumps_sample hmacSha256 (.authFail "no") rfl
  have hallowed : Hub.AnswerableReceipts (sampleRuntime hmacSha256) .start
      (.join 0 { name := "user1", session := none }) := trivial
  have hrun : Hub.Run (sampleRuntime hmacSha256) (Hub.AnswerableReceipts (sampleRuntime hmacSha256))
      oneClient := .step .start hallowed (oneClient_joins _)
  obtain ⟨hexact, hruns⟩ := message_loop_survives_iff (sampleRuntime hmacSha256)
  refine ⟨(hexact oneClient 0 _ rfl).mpr ?_, hruns oneClient hrun 0⟩
  exact answerable_of_not_sealed hparse fun _ heq => by cases heq

/-- Text that is no JSON ends the loop with pydantic's exception, and no error frame is written. -/
theorem message_loop_dies_of_malformed_text :
    Hub.Run (sampleRuntime hmacSha256) (fun _ _ => True) oneClient ∧ oneClient.thread 0 = .looping ∧
      ¬ Acceptable (sampleRuntime hmacSha256) (oneClient.client 0) (.text "not json") ∧
      (∃ s' exn, HubStep (sampleRuntime hmacSha256) (.receive 0 (.text "not json")) oneClient s' ∧
        s'.thread 0 = .leaving (.raised exn) ∧ s'.written 0 = []) ∧
      ¬ oneClient.Survives (sampleRuntime hmacSha256) 0 (.text "not json") := by
  have hparse : parseMessage (sampleRuntime hmacSha256) (.text "not json") =
      .error (.validationError "1 validation error for Packet\n  Invalid JSON") := by
    decide +kernel
  have hbody : messageLoopBody (sampleRuntime hmacSha256) (oneClient.client 0) (.text "not json") =
      (.error (.validationError "1 validation error for Packet\n  Invalid JSON"),
        oneClient.client 0) := by
    rw [messageLoopBody, hparse]
  refine ⟨.step .start trivial (oneClient_joins _), rfl, ?_, ⟨_, _, .crash rfl hbody, rfl, rfl⟩, ?_⟩
  · rintro (⟨_, _, hchat, _⟩ | ⟨_, _, _, _, hsealed, _⟩)
    · cases hparse.symm.trans hchat
    · cases hparse.symm.trans hsealed
  · intro hsurvives
    exact hsurvives.continues _ (.crash rfl hbody) _ rfl

end Priestly
