/-
Module: Priestly.Proofs.Conversation
Layer: Proofs
Purpose: What an authenticated client hands its user. Through sealed frames it gets only what the server
  sealed, in order; a plain chat frame, which the client takes although it has a session, gets anything
  through.
Imports: Priestly.Cli.Conversation, Priestly.Proofs.Channel, Priestly.Proofs.Agreement
Trusted boundary: tags under the server's MAC key come from the server
Main exports: Conversation.Sound, receive_in_order
-/
import Priestly.Cli.Conversation
import Priestly.Proofs.Channel
import Priestly.Proofs.Agreement

namespace Priestly

open ByteCodec Interaction

/-- Being presented with a frame does not touch the sending half. -/
theorem Endpoint.Sends.present {rt : Runtime} {base : SessionState} {e : Endpoint}
    (h : e.Sends rt base) (frame : SealedFrame) : (e.present rt frame).Sends rt base := by
  rw [Endpoint.present, SessionState.open]
  cases e.session.verify rt frame with
  | error exn => exact h
  | ok body =>
      simp only
      cases unpack body with
      | error exn => exact h.receive frame.seq _
      | ok plaintext => exact h.receive frame.seq _

/-! ### The conversation -/

namespace Conversation

variable {rt : Runtime} {keys : SessionKeys} {compress : Bool} {c : Conversation}

/-- What holds of a conversation without plain chat frames at any time. The returned messages are those
of a subsequence of what the server sealed, and the client's receive counter is at or above it. -/
structure Sound (rt : Runtime) (base : SessionState) (c : Conversation) : Prop where
  server : c.server.Sends rt base
  client : ∃ session, c.client.session = some session ∧ session.rxDir = base.txDir ∧
    session.rxMac = base.txMac ∧
    ∃ picked : List (Bytes × SealedFrame), picked.Sublist c.server.sent ∧
      (picked.map fun entry => decodeMessage rt entry.1) = c.returned.map .ok ∧
      ∀ entry ∈ picked, entry.2.seq ≤ session.rxSeq

theorem Sound.inOrder {base : SessionState} (h : c.Sound rt base) : c.InOrder rt := by
  obtain ⟨_, _, _, _, picked, hsub, hdecode, _⟩ := h.client
  exact ⟨picked, hsub, hdecode⟩

/-- The start of a conversation with an authenticated client. -/
theorem start_sound {client : ChatClient} {compressed : Bool}
    (hsession : client.session = some (.new keys true compressed)) :
    (start keys compress client).Sound rt (.new keys false compress) := by
  constructor
  · exact Endpoint.sends_start keys false compress
  · exact ⟨_, hsession, rfl, rfl, [], List.Sublist.refl _, rfl, fun _ hentry => by cases hentry⟩

/-- The server seals a plaintext. -/
theorem Sound.serverSeals {base : SessionState} (h : c.Sound rt base) (plaintext : Bytes) :
    (c.next rt (.serverSeals plaintext)).Sound rt base := by
  obtain ⟨session, hsession, hdir, hkey, picked, hsub, hdecode, hseen⟩ := h.client
  have hlog : c.server.sent.Sublist (c.server.push rt.hmac plaintext).sent := by
    rcases Endpoint.push_cases c.server rt.hmac plaintext with ⟨frame, _, hpush⟩ | ⟨_, hpush⟩
    · rw [hpush]
      exact List.sublist_append_left _ _
    · rw [hpush]
  constructor
  · exact h.server.push plaintext
  · exact ⟨session, hsession, hdir, hkey, picked, hsub.trans hlog, hdecode, hseen⟩

/-- The server is presented with a frame. -/
theorem Sound.serverOpens {base : SessionState} (h : c.Sound rt base) (frame : SealedFrame) :
    (c.next rt (.serverOpens frame)).Sound rt base := by
  have hlog : (c.server.present rt frame).sent = c.server.sent := by
    rw [Endpoint.present]
    split
    · rfl
    · rfl
  constructor
  · exact h.server.present frame
  · obtain ⟨session, hsession, hdir, hkey, picked, hsub, hdecode, hseen⟩ := h.client
    exact ⟨session, hsession, hdir, hkey, picked, hlog ▸ hsub, hdecode, hseen⟩

/-- The client sends a message. -/
theorem Sound.clientSends {base : SessionState} (h : c.Sound rt base) (text sender : String) :
    (c.next rt (.clientSends text sender)).Sound rt base := by
  obtain ⟨session, hsession, hdir, hkey, picked, hsub, hdecode, hseen⟩ := h.client
  constructor
  · exact h.server
  · refine ⟨{ session with txSeq := session.txSeq + 1 }, ?_, hdir, hkey, picked, hsub, hdecode, hseen⟩
    rw [next, ChatClient.send, hsession]
    rfl

/-- A delivered message that is no plain chat frame makes the client return the next plaintext the
server sealed above the receive counter, or nothing. -/
theorem Sound.receive_cases {base : SessionState} (h : c.Sound rt base) {session : SessionState}
    (hsession : c.client.session = some session) (hdir : session.rxDir = base.txDir)
    (hkey : session.rxMac = base.txMac) {message : WsMessage} (hmac : base.txMac = keys.serverMac)
    (hgenuine : c.Genuine rt keys (.delivered message)) (hplain : ¬ PlainChat rt message) :
    (∃ entry ∈ c.server.sent, session.rxSeq < entry.2.seq ∧ c.client.receive rt message =
      (decodeMessage rt entry.1,
        { c.client with session := some { session with rxSeq := entry.2.seq } })) ∨
    ∃ exn, c.client.receive rt message = (.error exn, c.client) := by
  rw [ChatClient.receive]
  cases hparse : parseMessage rt message with
  | error exn => exact .inr ⟨exn, rfl⟩
  | ok frame =>
      cases frame with
      | chat text sender => exact absurd ⟨text, sender, hparse⟩ hplain
      | «sealed» frame =>
          simp only [hsession]
          cases hverify : session.verify rt frame with
          | error exn =>
              right
              refine ⟨exn, ?_⟩
              rw [SessionState.open_of_verify_error hverify, ← hsession]
              rfl
          | ok body =>
              obtain ⟨_, hdecode, ⟨input, hinput, htag⟩, hseq⟩ := SessionState.verify_eq_ok_iff.mp hverify
              rw [hkey, hmac] at htag
              obtain ⟨entry, hentry, hsame⟩ := hgenuine frame input hparse ⟨body, hdecode, hinput⟩ htag
              have hseals := h.server.seals entry hentry
              have hcarries := hseals.carries_of_authenticates hdir hkey hverify hinput hsame
              obtain ⟨body', hverify', hunpack⟩ := hseals.verify hcarries hdir hkey hseq
              left
              refine ⟨entry, hentry, hcarries.seq ▸ hseq, ?_⟩
              rw [SessionState.open_of_verify_ok hverify', hunpack, hcarries.seq]
              rfl
      | _ => exact .inr ⟨_, rfl⟩

/-- A message is delivered that is no plain chat frame. -/
theorem Sound.delivered {base : SessionState} (h : c.Sound rt base) {message : WsMessage}
    (hmac : base.txMac = keys.serverMac) (hgenuine : c.Genuine rt keys (.delivered message))
    (hplain : ¬ PlainChat rt message) : (c.next rt (.delivered message)).Sound rt base := by
  obtain ⟨session, hsession, hdir, hkey, picked, hsub, hdecode, hseen⟩ := h.client
  rw [next]
  rcases h.receive_cases hsession hdir hkey hmac hgenuine hplain with
    ⟨entry, hentry, hseq, hreceive⟩ | ⟨exn, hreceive⟩
  · rw [hreceive]
    have hbelow : ∀ old ∈ picked, old.2.seq ≤ entry.2.seq :=
      fun old hold => (hseen old hold).trans hseq.le
    cases hhanded : decodeMessage rt entry.1 with
    | error exn =>
        constructor
        · exact h.server
        · exact ⟨_, rfl, hdir, hkey, picked, hsub, hdecode, hbelow⟩
    | ok handed =>
        constructor
        · exact h.server
        · refine ⟨_, rfl, hdir, hkey, picked ++ [entry], ?_, ?_, ?_⟩
          · apply h.server.increasing.sublist_concat hsub hentry
            intro old hold
            exact (hseen old hold).trans_lt hseq
          · rw [List.map_append, hdecode, List.map_append, List.map_singleton, hhanded,
              List.map_singleton]
          · intro old hold
            rcases List.mem_append.mp hold with hold | hnew
            · exact hbelow old hold
            · rw [List.mem_singleton.mp hnew]
  · rw [hreceive]
    exact h

/-- Every run without plain chat frames stays sound. -/
theorem Run.sound {client : ChatClient} {compressed : Bool}
    (hsession : client.session = some (.new keys true compressed)) {events : List Event}
    (hrun : Run rt keys (start keys compress client) events c)
    (hplain : ∀ message, Event.delivered message ∈ events → ¬ PlainChat rt message) :
    c.Sound rt (.new keys false compress) := by
  induction hrun with
  | nil => exact start_sound hsession
  | snoc run event genuine ih =>
      have hsound := ih fun message hmem => hplain message (List.mem_append_left _ hmem)
      cases event with
      | serverSeals plaintext => exact hsound.serverSeals plaintext
      | serverOpens frame => exact hsound.serverOpens frame
      | clientSends text sender => exact hsound.clientSends text sender
      | delivered message =>
          exact hsound.delivered rfl genuine (hplain message (by simp))

end Conversation

/-- A client that has authenticated hands its user only what the server sealed for the session, in the
order of the sealing and each message at most once, in every run in which no plain chat frame is
delivered. -/
theorem receive_in_order (rt : Runtime) (grp : ModpGroup) {fresh client : ChatClient} {a : Nat}
    {password : Bytes} {inputs : List WsMessage}
    (hauth : ((fresh.authenticate rt grp a password).runLive inputs).outcome = .returned client) :
    (∃ shared : grp.Element, client.session = some (sessionOf rt grp shared true)) ∧
      ∀ keys, client.session = some (.new keys true true) →
        ∀ (compress : Bool) (events : List Conversation.Event) (c : Conversation),
          Conversation.Run rt keys (.start keys compress client) events c →
          (∀ message, .delivered message ∈ events → ¬ Conversation.PlainChat rt message) →
          c.InOrder rt := by
  obtain ⟨session, hreturned, rfl⟩ := (Program.returned_bind_pure_iff _ _ _ _).mp hauth
  obtain ⟨_, _, _, publicB, _, _, _, rfl⟩ := (runClient_spec a password inputs).returned hreturned
  constructor
  · exact ⟨sharedSecret grp publicB a, rfl⟩
  · intro keys hsession compress events c hrun hplain
    exact (hrun.sound hsession hplain).inOrder

namespace Conversation

/-- A message that the server seals and the attacker delivers reaches the user. -/
theorem exists_honest_run {rt : Runtime} {keys : SessionKeys} {client : ChatClient}
    (hround : JsonRoundTrip rt)
    (hparse : ∀ frame, parseMessage rt (wire rt (.sealed frame)) = .ok (.sealed frame))
    (hsession : client.session = some (.new keys true true)) (text sender : String) :
    ∃ (events : List Event) (c : Conversation), Run rt keys (start keys false client) events c ∧
      c.returned = [(text, sender)] ∧
      ∀ message, Event.delivered message ∈ events → ¬ PlainChat rt message := by
  let plaintext := encodeMessage rt text sender
  let server := SessionState.new keys false false
  obtain ⟨frame, hframe⟩ : ∃ frame, (server.seal rt.hmac plaintext).1 = .ok frame := by
    apply SessionState.seal_ok_iff.mpr
    refine ⟨?_, ?_, ?_⟩
    · intro hcompress
      cases hcompress
    · simp [server, SessionState.new]
    · simp [server, SessionState.new]
  have hseal : server.seal rt.hmac plaintext = (.ok frame, { server with txSeq := 0 + 1 }) :=
    Prod.ext hframe (SessionState.seal_snd server rt.hmac plaintext)
  -- The server seals the message.
  let c₁ := (start keys false client).next rt (.serverSeals plaintext)
  have hsent : c₁.server.sent = [(plaintext, frame)] := by
    rcases Endpoint.push_cases (start keys false client).server rt.hmac plaintext with
      ⟨other, hother, hpush⟩ | ⟨⟨exn, hexn⟩, _⟩
    · obtain rfl := Except.ok.inj (hother.symm.trans hframe)
      exact congrArg Endpoint.sent hpush
    · cases hexn.symm.trans hframe
  have hrun₁ : Run rt keys (start keys false client) ([] ++ [.serverSeals plaintext]) c₁ :=
    .snoc .nil _ trivial
  -- The attacker delivers it; its tag is the server's.
  have hgenuine : c₁.Genuine rt keys (.delivered (wire rt (.sealed frame))) := by
    intro other input hother hclaims _
    obtain rfl := Frame.sealed.inj (Except.ok.inj (hother.symm.trans (hparse frame)))
    refine ⟨(plaintext, other), ?_, hclaims⟩
    rw [hsent]
    exact List.mem_singleton.mpr rfl
  have hreceive : client.receive rt (wire rt (.sealed frame)) = (.ok (text, sender),
      { client with session := some { SessionState.new keys true true with rxSeq := 0 + 1 } }) := by
    have hopen : (SessionState.new keys true true).open rt frame =
        (.ok plaintext, { SessionState.new keys true true with rxSeq := 0 + 1 }) :=
      SessionState.open_sealed hseal rfl rfl (Int.lt_add_one_of_le (le_refl 0))
    rw [ChatClient.receive, hparse]
    simp only [hsession, hopen]
    rw [Except.bind, decodeMessage_encodeMessage hround]
  refine ⟨_, _, hrun₁.snoc _ hgenuine, ?_, ?_⟩
  · show (c₁.next rt (.delivered (wire rt (.sealed frame)))).returned = _
    have hclient : c₁.client = client := rfl
    rw [next, hclient, hreceive]
    rfl
  · rintro message hmem ⟨other, name, hchat⟩
    rcases List.mem_append.mp hmem with hfirst | hsecond
    · cases List.mem_singleton.mp hfirst
    · obtain rfl := Event.delivered.inj (List.mem_singleton.mp hsecond)
      cases hchat.symm.trans (hparse frame)

end Conversation

/-! ### A client with one message -/

/-- The runtime of the sample conversation. -/
def conversationRuntime : Runtime := sampleRuntime hmacSha256

/-- The client after the sample handshake. -/
def conversationClient : ChatClient :=
  { ChatClient.new with
    session := some (sessionOf conversationRuntime group23
      (sharedSecret group23 (publicElement group23 4) 3) true) }

/-- The server's messages in the sample handshake. -/
def conversationInputs : List WsMessage :=
  [wire conversationRuntime (challengeFrame conversationRuntime group23 4 (asciiBytes "alpha")),
    wire conversationRuntime (authOkFrame conversationRuntime group23 4
      (commitDigest group23 (publicElement group23 3)) (publicElement group23 3))]

/-- The sample handshake authenticates the client. -/
theorem conversationClient_authenticated :
    ((ChatClient.new.authenticate conversationRuntime group23 3 (asciiBytes "alpha")).runLive
      conversationInputs).outcome = .returned conversationClient := by
  have hparse : ∀ frame : Frame, frame.Sampled →
      parseMessage conversationRuntime (wire conversationRuntime frame) = .ok frame :=
    fun frame hframe => loads_dumps_sample _ hframe
  have hreads : ReadsChallenge conversationRuntime group23 (asciiBytes "alpha")
      (wire conversationRuntime (challengeFrame conversationRuntime group23 4 (asciiBytes "alpha")))
      (publicElement group23 4) :=
    readsChallenge_wire (by decide) (hparse _ rfl) (by decide +kernel)
  have hverdict := hparse (authOkFrame conversationRuntime group23 4
    (commitDigest group23 (publicElement group23 3)) (publicElement group23 3)) rfl
  rw [authOkFrame_eq_expectedFrame] at hverdict
  apply (Program.returned_bind_pure_iff _ _ _ _).mpr
  refine ⟨sessionOf conversationRuntime group23 (sharedSecret group23 (publicElement group23 4) 3)
    true, ?_, rfl⟩
  rw [conversationInputs, authOkFrame_eq_expectedFrame, runClient_accepts hreads hverdict]

/-- The keys of the sample session. -/
def conversationKeys : SessionKeys :=
  sessionKeys group23 conversationRuntime.hmac (sharedSecret group23 (publicElement group23 4) 3)

/-- The server seals a message, the attacker delivers it, and the client hands over what was sealed. -/
theorem receive_in_order_group23 :
    ∃ (events : List Conversation.Event) (c : Conversation),
      Conversation.Run conversationRuntime conversationKeys
        (.start conversationKeys false conversationClient) events c ∧
      c.returned = [("hi", "bob")] ∧ c.InOrder conversationRuntime := by
  have hparse : ∀ frame, parseMessage conversationRuntime (wire conversationRuntime (.sealed frame)) =
      .ok (.sealed frame) := fun _ => loads_dumps_sample _ rfl
  have hjson : JsonRoundTrip conversationRuntime := by
    intro text sender
    rw [messageObject]
    exact jsonLoads_jsonDumps_sample _ text sender
  have hsession : conversationClient.session = some (.new conversationKeys true true) := rfl
  obtain ⟨events, c, hrun, hreturned, hplain⟩ :=
    Conversation.exists_honest_run hjson hparse hsession "hi" "bob"
  refine ⟨events, c, hrun, hreturned, ?_⟩
  exact (receive_in_order conversationRuntime group23 conversationClient_authenticated).2
    conversationKeys hsession false events c hrun hplain

/-- The message an attacker writes itself. -/
def plainChat : WsMessage :=
  wire conversationRuntime (.chat "the password has changed" "admin")

/-- An authenticated client hands its user a message the server never sealed: the attacker delivers it
as a plain chat frame. -/
theorem plain_chat_is_handed_over :
    ((ChatClient.new.authenticate conversationRuntime group23 3 (asciiBytes "alpha")).runLive
      conversationInputs).outcome = .returned conversationClient ∧
    ∃ c, Conversation.Run conversationRuntime conversationKeys
        (.start conversationKeys false conversationClient) [.delivered plainChat] c ∧
      c.server.sent = [] ∧ c.returned = [("the password has changed", "admin")] ∧
      ¬ c.InOrder conversationRuntime := by
  have hparse : parseMessage conversationRuntime plainChat =
      .ok (.chat "the password has changed" "admin") :=
    @loads_dumps_sample hmacSha256 (.chat "the password has changed" "admin") rfl
  let c₀ := Conversation.start conversationKeys false conversationClient
  have hgenuine : c₀.Genuine conversationRuntime conversationKeys (.delivered plainChat) := by
    intro frame input hframe
    cases hframe.symm.trans hparse
  have hnext : c₀.next conversationRuntime (.delivered plainChat) =
      { c₀ with returned := [("the password has changed", "admin")] } := by
    rw [Conversation.next, ChatClient.receive, hparse]
    rfl
  refine ⟨conversationClient_authenticated, _, (Conversation.Run.nil).snoc _ hgenuine, ?_, ?_, ?_⟩
  · rw [hnext]
    rfl
  · rw [hnext]
  · rw [hnext]
    rintro ⟨picked, hsub, hdecode⟩
    obtain rfl := List.sublist_nil.mp hsub
    cases hdecode

end Priestly
