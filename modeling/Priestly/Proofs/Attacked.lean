/-
Module: Priestly.Proofs.Attacked
Layer: Proofs
Purpose: A protected node under attack. Whatever an attacker delivers on any connection, and whoever else in the
  room is on its side, the server broadcasts of a user only what that user has said, in order and at most once;
  and what a user hears through sealed frames are broadcasts of others, of each sender in order and at most
  once.
Imports: Priestly.Cli.Attacked, Priestly.Proofs.Authorization, Priestly.Proofs.Conversation,
  Priestly.Proofs.Room
Trusted boundary: the JSON round trip of payloads is a hypothesis; nobody but the two ends of a connection
  computes tags under its keys
Main exports: Wire, Hub.Effect, AttackedRoom.Sound, AttackedRoom.Withstands, room_withstands
-/
import Priestly.Cli.Attacked
import Priestly.Proofs.Authorization
import Priestly.Proofs.Conversation
import Priestly.Proofs.Room

namespace Priestly

open ByteCodec Function

/-! ### What an end does with a message -/

/-- The message is a sealed frame. -/
def isSealed (rt : Runtime) (message : WsMessage) : Bool :=
  match parseMessage rt message with
  | .ok (.sealed _) => true
  | _ => false

/-- The message in a plaintext. -/
def messageOf (rt : Runtime) (plaintext : Bytes) : Option (String × String) :=
  (decodeMessage rt plaintext).toOption

/-- What a client has handed its user out of sealed frames. -/
def throughSeal (rt : Runtime) (heard : List (WsMessage × (String × String))) : List (String × String) :=
  (heard.filter fun entry => isSealed rt entry.1).map Prod.snd

/-- The messages that an end has taken out of the frames it has accepted. -/
def Endpoint.opened (rt : Runtime) (e : Endpoint) : List (String × String) :=
  e.accepted.filterMap fun entry => messageOf rt entry.2

namespace Endpoint

variable (e : Endpoint) (rt : Runtime)

/-- Making the frame of a message pushes its plaintext. -/
theorem outgoing_push (text sender : String) :
    (outgoing rt (some e.session) text sender).2 =
        some (e.push rt.hmac (encodeMessage rt text sender)).session ∧
      (e.push rt.hmac (encodeMessage rt text sender)).accepted = e.accepted ∧
      ((∃ frame, (outgoing rt (some e.session) text sender).1 = .ok (.sealed frame) ∧
          (e.push rt.hmac (encodeMessage rt text sender)).sent =
            e.sent ++ [(encodeMessage rt text sender, frame)]) ∨
        ∃ exn, (outgoing rt (some e.session) text sender).1 = .error exn ∧
          (e.push rt.hmac (encodeMessage rt text sender)).sent = e.sent) := by
  rw [outgoing_snd, outgoing_fst]
  rcases push_cases e rt.hmac (encodeMessage rt text sender) with
    ⟨frame, hframe, hpush⟩ | ⟨⟨exn, hexn⟩, hpush⟩
  · rw [hpush, hframe]
    exact ⟨rfl, rfl, .inl ⟨frame, rfl, rfl⟩⟩
  · rw [hpush, hexn]
    exact ⟨rfl, rfl, .inr ⟨exn, rfl, rfl⟩⟩

/-- Being presented with a frame opens it; the message of the frame is added to what was opened. -/
theorem present_opened (frame : SealedFrame) :
    (e.present rt frame).session = (e.session.open rt frame).2 ∧ (e.present rt frame).sent = e.sent ∧
      (e.present rt frame).opened rt =
        e.opened rt ++ ((e.session.open rt frame).1.bind (decodeMessage rt)).toOption.toList := by
  rw [present]
  obtain ⟨result, session⟩ := e.session.open rt frame
  cases result with
  | error exn => exact ⟨rfl, rfl, (List.append_nil _).symm⟩
  | ok plaintext =>
      refine ⟨rfl, rfl, ?_⟩
      show (e.accepted ++ [(frame, plaintext)]).filterMap _ = _
      rw [List.filterMap_append]
      cases hmessage : decodeMessage rt plaintext with
      | error exn => simp [opened, messageOf, Except.bind, Except.toOption, hmessage]
      | ok handed => simp [opened, messageOf, Except.bind, Except.toOption, hmessage]

end Endpoint

section Taking

variable {rt : Runtime} {message : WsMessage}

theorem isSealed_of_parse {frame : SealedFrame} (h : parseMessage rt message = .ok (.sealed frame)) :
    isSealed rt message = true := by
  rw [isSealed, h]

theorem exists_frame_of_isSealed (h : isSealed rt message = true) :
    ∃ frame, parseMessage rt message = .ok (.sealed frame) := by
  rw [isSealed] at h
  cases hparse : parseMessage rt message with
  | error exn =>
      rw [hparse] at h
      cases h
  | ok frame =>
      rw [hparse] at h
      cases frame with
      | «sealed» frame => exact ⟨frame, rfl⟩
      | _ => cases h

/-- A client that has a session opens a sealed frame with it. -/
theorem ChatClient.receive_sealed {user : ChatClient} {session : SessionState} {frame : SealedFrame}
    (hparse : parseMessage rt message = .ok (.sealed frame)) (hsession : user.session = some session) :
    user.receive rt message =
      ((session.open rt frame).1.bind (decodeMessage rt),
        { user with session := some (session.open rt frame).2 }) := by
  simp only [ChatClient.receive, hparse, hsession]

/-- Other messages leave its session alone, and it takes nothing from them but plain chat. -/
theorem ChatClient.receive_other (user : ChatClient) (h : isSealed rt message = false) :
    (user.receive rt message).2 = user ∧ ∀ handed, (user.receive rt message).1 = .ok handed →
      parseMessage rt message = .ok (.chat handed.1 handed.2) := by
  rw [ChatClient.receive]
  cases hparse : parseMessage rt message with
  | error exn =>
      refine ⟨rfl, ?_⟩
      intro handed hok
      cases hok
  | ok frame =>
      cases frame with
      | «sealed» frame =>
          rw [isSealed_of_parse hparse] at h
          cases h
      | chat text sender =>
          refine ⟨rfl, ?_⟩
          intro handed hok
          rw [← Except.ok.inj hok]
      | _ =>
          refine ⟨rfl, ?_⟩
          intro handed hok
          cases hok

/-- The loop opens a sealed frame with the session of its client, and broadcasts the message it finds. -/
theorem messageLoopBody_sealed {client : RegisteredClient} {session : SessionState} {frame : SealedFrame}
    (hparse : parseMessage rt message = .ok (.sealed frame)) (hsession : client.session = some session) :
    (messageLoopBody rt client message).2 = { client with session := some (session.open rt frame).2 } ∧
      ∀ text name, (messageLoopBody rt client message).1 = .ok (.broadcast text name) ↔
        ∃ sender, (session.open rt frame).1.bind (decodeMessage rt) = .ok (text, sender) ∧
          name = senderOr sender client.name := by
  simp only [messageLoopBody, hparse, hsession]
  generalize (session.open rt frame).1.bind (decodeMessage rt) = result
  cases result with
  | ok handed =>
      refine ⟨rfl, fun text name => ?_⟩
      constructor
      · intro h
        obtain ⟨rfl, rfl⟩ := LoopAction.broadcast.inj (Except.ok.inj h)
        exact ⟨handed.2, rfl, rfl⟩
      · rintro ⟨sender, hhanded, rfl⟩
        rw [Except.ok.inj hhanded]
  | error exn =>
      have hnothing : ∀ text name : String, ¬ ∃ sender : String,
          (Except.error exn : Except Exn (String × String)) = .ok (text, sender) ∧
            name = senderOr sender client.name := by
        rintro text name ⟨_, h, _⟩
        cases h
      by_cases hcaught : exn.isBadFrame = true
      · simp only [hcaught, if_true]
        refine ⟨trivial, fun text name => iff_of_false ?_ (hnothing text name)⟩
        intro h
        cases h
      · simp only [hcaught, Bool.false_eq_true, if_false]
        refine ⟨trivial, fun text name => iff_of_false ?_ (hnothing text name)⟩
        intro h
        cases h

/-- It broadcasts no other message of a client with a session, and leaves the session alone. -/
theorem messageLoopBody_other {client : RegisteredClient} (h : isSealed rt message = false)
    (hsession : client.session.isSome = true) :
    (messageLoopBody rt client message).2 = client ∧
      ∀ text name, (messageLoopBody rt client message).1 ≠ .ok (.broadcast text name) := by
  obtain ⟨session, hsession⟩ := Option.isSome_iff_exists.mp hsession
  rw [messageLoopBody]
  cases hparse : parseMessage rt message with
  | error exn => exact ⟨rfl, fun text name hbroadcast => by cases hbroadcast⟩
  | ok frame =>
      cases frame with
      | «sealed» frame =>
          rw [isSealed_of_parse hparse] at h
          cases h
      | chat text sender =>
          simp only [hsession]
          exact ⟨trivial, fun text name hbroadcast => by cases hbroadcast⟩
      | _ => exact ⟨rfl, fun text name hbroadcast => by cases hbroadcast⟩

end Taking

/-! ### One connection -/

/-- A message under the name it is broadcast by. -/
def underName (name : String) (message : String × String) : String × String :=
  (message.1, senderOr message.2 name)

/-- Whether each side of a connection compresses. -/
def compressing (atUser atServer : Bool) : Role → Bool
  | .client => atUser
  | .server => atServer

/-- What holds of connection `i`, whose two ends have the channel as their history. The sessions are those of the
channel, and what the ends have made is what they have sealed; on an honest connection the channel is sound, the
server has broadcast what it has opened, and so has the user heard. -/
structure Wire (rt : Runtime) (broadcasts : List Broadcast) (i : Nat) (keys : SessionKeys) (honest : Prop)
    (user : ChatClient) (client : RegisteredClient) (said : List Letter) (relays : List (Nat × Frame))
    (heard : List (WsMessage × (String × String))) (compress : Role → Bool) (c : Channel) : Prop where
  atUser : user.session = some (c .client).session
  atServer : client.session = some (c .server).session
  said : List.Forall₂ (Letter.Encloses (encoding rt)) said (c .client).sent
  relayed : List.Forall₂ (Hub.Matches rt broadcasts) relays (c .server).sent
  sends : ∀ role, (c role).Sends rt (Channel.base keys compress role)
  sound : honest → c.Sound rt keys compress
  told : honest → broadcastBy broadcasts i = ((c .server).opened rt).map (underName client.name)
  heard : honest → throughSeal rt heard = (c .client).opened rt

namespace Wire

variable {rt : Runtime} {broadcasts : List Broadcast} {i : Nat} {keys : SessionKeys} {honest : Prop}
  {user user' : ChatClient} {client client' : RegisteredClient} {said : List Letter} {relays : List (Nat × Frame)}
  {heard : List (WsMessage × (String × String))} {compress : Role → Bool} {c : Channel}

/-- One side of a channel moves. -/
theorem sends_set (h : ∀ role, (c role).Sends rt (Channel.base keys compress role)) {role : Role} {e : Endpoint}
    (he : e.Sends rt (Channel.base keys compress role)) (other : Role) :
    (c.set role e other).Sends rt (Channel.base keys compress other) := by
  by_cases hother : other = role
  · rw [hother, Channel.set_self]
    exact he
  · rw [Channel.set_of_ne c e hother]
    exact h other

/-- A connection that has gone through its handshake. -/
theorem start {atUser atServer : Bool} (huser : user.session = some (.new keys true atUser))
    (hclient : client.session = some (.new keys false atServer)) (hnone : broadcastBy broadcasts i = []) :
    ∃ compress c, Wire rt broadcasts i keys honest user client [] [] [] compress c := by
  let compress := compressing atUser atServer
  refine ⟨compress, .start keys compress, huser, hclient, .nil, .nil, ?_,
    fun _ => Channel.start_sound keys compress, fun _ => hnone, fun _ => rfl⟩
  exact fun role => ((Channel.start_sound keys compress).side role).sends

/-- Another connection has a message broadcast. -/
theorem log (h : Wire rt broadcasts i keys honest user client said relays heard compress c)
    {more : List Broadcast} (hothers : ∀ message ∈ more, message.sender ≠ i) :
    Wire rt (broadcasts ++ more) i keys honest user client said relays heard compress c := by
  refine ⟨h.atUser, h.atServer, h.said, h.relayed.imp fun _ _ hone => hone.append more, h.sends, h.sound, ?_,
    h.heard⟩
  intro hhonest
  have hnone : more.filter (·.sender = i) = [] := by
    apply List.filter_eq_nil_iff.mpr
    intro message hmessage hsame
    exact hothers message hmessage (of_decide_eq_true hsame)
  rw [broadcastBy, List.filter_append, hnone, List.append_nil]
  exact h.told hhonest

/-- The user makes a frame, or fails to. -/
theorem say (h : Wire rt broadcasts i keys honest user client said relays heard compress c)
    {text sender : String} {result : Except Exn Frame} (hsend : user.send rt text sender = (result, user')) :
    ∃ c', (∀ frame, result = .ok frame →
        Wire rt broadcasts i keys honest user' client (said ++ [((text, sender), frame)]) relays heard compress
          c') ∧
      ∀ exn, result = .error exn →
        Wire rt broadcasts i keys honest user' client said relays heard compress c' := by
  rw [ChatClient.send_eq, h.atUser] at hsend
  obtain ⟨hresult, rfl⟩ := Prod.mk.inj hsend
  let plaintext := encodeMessage rt text sender
  obtain ⟨hsession, haccepted, hmade⟩ := (c .client).outgoing_push rt text sender
  have hsends := sends_set h.sends ((h.sends .client).push plaintext)
  have hsound : honest → (c.set .client ((c .client).push rt.hmac plaintext)).Sound rt keys compress :=
    fun hhonest => (h.sound hhonest).push .client plaintext
  have hheard : honest → throughSeal rt heard = ((c .client).push rt.hmac plaintext).opened rt := by
    intro hhonest
    rw [Endpoint.opened, haccepted]
    exact h.heard hhonest
  refine ⟨c.set .client ((c .client).push rt.hmac plaintext), fun frame hok => ?_, fun exn herror => ?_⟩
  · rw [hok] at hresult
    rcases hmade with ⟨sealedFrame, hframe, hsent⟩ | ⟨exn, hexn, _⟩
    · rw [hframe] at hresult
      obtain rfl := Except.ok.inj hresult
      refine ⟨hsession, h.atServer, ?_, h.relayed, hsends, hsound, h.told, hheard⟩
      show List.Forall₂ _ _ ((c .client).push rt.hmac plaintext).sent
      rw [hsent]
      exact List.rel_append h.said (.cons ⟨rfl, rfl⟩ .nil)
    · rw [hexn] at hresult
      cases hresult
  · rw [herror] at hresult
    rcases hmade with ⟨sealedFrame, hframe, _⟩ | ⟨_, _, hsent⟩
    · rw [hframe] at hresult
      cases hresult
    · refine ⟨hsession, h.atServer, ?_, h.relayed, hsends, hsound, h.told, hheard⟩
      show List.Forall₂ _ _ ((c .client).push rt.hmac plaintext).sent
      rw [hsent]
      exact h.said

/-- The server makes a frame of a broadcast, or fails to. -/
theorem deliver (h : Wire rt broadcasts i keys honest user client said relays heard compress c) {b : Nat}
    {message : Broadcast} (hlog : broadcasts[b]? = some message) {result : Except Exn Frame}
    (hdeliver : client.deliver rt message.text message.senderName = (result, client')) :
    ∃ c', (∀ frame, result = .ok frame →
        Wire rt broadcasts i keys honest user client' said (relays ++ [(b, frame)]) heard compress c') ∧
      ∀ exn, result = .error exn →
        Wire rt broadcasts i keys honest user client' said relays heard compress c' := by
  rw [RegisteredClient.deliver_eq, h.atServer] at hdeliver
  obtain ⟨hresult, rfl⟩ := Prod.mk.inj hdeliver
  let plaintext := encodeMessage rt message.text message.senderName
  obtain ⟨hsession, haccepted, hmade⟩ :=
    (c .server).outgoing_push rt message.text message.senderName
  have hsends := sends_set h.sends ((h.sends .server).push plaintext)
  have hsound : honest → (c.set .server ((c .server).push rt.hmac plaintext)).Sound rt keys compress :=
    fun hhonest => (h.sound hhonest).push .server plaintext
  have htold : honest → broadcastBy broadcasts i =
      (((c .server).push rt.hmac plaintext).opened rt).map (underName client.name) := by
    intro hhonest
    rw [Endpoint.opened, haccepted]
    exact h.told hhonest
  refine ⟨c.set .server ((c .server).push rt.hmac plaintext), fun frame hok => ?_, fun exn herror => ?_⟩
  · rw [hok] at hresult
    rcases hmade with ⟨sealedFrame, hframe, hsent⟩ | ⟨exn, hexn, _⟩
    · rw [hframe] at hresult
      obtain rfl := Except.ok.inj hresult
      refine ⟨h.atUser, hsession, h.said, ?_, hsends, hsound, htold, h.heard⟩
      show List.Forall₂ _ _ ((c .server).push rt.hmac plaintext).sent
      rw [hsent]
      exact List.rel_append h.relayed (.cons ⟨rfl, message, hlog, rfl⟩ .nil)
    · rw [hexn] at hresult
      cases hresult
  · rw [herror] at hresult
    rcases hmade with ⟨sealedFrame, hframe, _⟩ | ⟨_, _, hsent⟩
    · rw [hframe] at hresult
      cases hresult
    · refine ⟨h.atUser, hsession, h.said, ?_, hsends, hsound, htold, h.heard⟩
      show List.Forall₂ _ _ ((c .server).push rt.hmac plaintext).sent
      rw [hsent]
      exact h.relayed

/-- The session of an end is presented with a frame that is not forged. -/
theorem sound_present (h : Wire rt broadcasts i keys honest user client said relays heard compress c)
    {frame : SealedFrame}
    (hunforged : honest → Unforged rt keys c frame) (role : Role) :
    (∀ other, (c.set role ((c role).present rt frame) other).Sends rt (Channel.base keys compress other)) ∧
      (honest → (c.set role ((c role).present rt frame)).Sound rt keys compress) := by
  constructor
  · exact sends_set h.sends ((h.sends role).present frame)
  · exact fun hhonest => (h.sound hhonest).step (.present role frame (hunforged hhonest))

/-- The user receives a sealed frame. -/
theorem hear (h : Wire rt broadcasts i keys honest user client said relays heard compress c)
    {message : WsMessage}
    {result : Except Exn (String × String)} (hreceive : user.receive rt message = (result, user'))
    (hunforged : honest → ∀ frame, parseMessage rt message = .ok (.sealed frame) → Unforged rt keys c frame) :
    ∃ c', (∀ handed, result = .ok handed → Wire rt broadcasts i keys honest user' client said relays
        (heard ++ [(message, handed)]) compress c') ∧
      ∀ exn, result = .error exn →
        Wire rt broadcasts i keys honest user' client said relays heard compress c' := by
  cases hsealed : isSealed rt message with
  | true =>
      obtain ⟨frame, hparse⟩ := exists_frame_of_isSealed hsealed
      rw [ChatClient.receive_sealed hparse h.atUser] at hreceive
      obtain ⟨hresult, rfl⟩ := Prod.mk.inj hreceive
      obtain ⟨hsession, hsent, hopened⟩ := (c .client).present_opened rt frame
      obtain ⟨hsends, hsound⟩ :=
        h.sound_present (fun hhonest => hunforged hhonest frame hparse) .client
      have hsaid : List.Forall₂ (Letter.Encloses (encoding rt)) said ((c .client).present rt frame).sent := by
        rw [hsent]
        exact h.said
      rw [hresult] at hopened
      refine ⟨c.set .client ((c .client).present rt frame), fun handed hok => ?_, fun exn herror => ?_⟩
      · refine ⟨congrArg some hsession.symm, h.atServer, hsaid, h.relayed, hsends, hsound, h.told,
          fun hhonest => ?_⟩
        show _ = ((c .client).present rt frame).opened rt
        rw [hopened, hok, ← h.heard hhonest, throughSeal, List.filter_append, List.map_append]
        simp [hsealed, Except.toOption, throughSeal]
      · refine ⟨congrArg some hsession.symm, h.atServer, hsaid, h.relayed, hsends, hsound, h.told,
          fun hhonest => ?_⟩
        show _ = ((c .client).present rt frame).opened rt
        rw [hopened, herror, ← h.heard hhonest]
        exact (List.append_nil _).symm
  | false =>
      obtain ⟨huser, _⟩ := ChatClient.receive_other user hsealed
      rw [hreceive] at huser
      obtain rfl : user' = user := huser
      refine ⟨c, fun handed _ => ?_, fun _ _ => h⟩
      refine ⟨h.atUser, h.atServer, h.said, h.relayed, h.sends, h.sound, h.told, fun hhonest => ?_⟩
      rw [throughSeal, List.filter_append, List.map_append, ← throughSeal, h.heard hhonest]
      simp [hsealed]

/-- The server receives a message: it broadcasts what it opens. -/
theorem receive (h : Wire rt broadcasts i keys honest user client said relays heard compress c)
    {message : WsMessage}
    {result : Except Exn LoopAction} (hbody : messageLoopBody rt client message = (result, client'))
    (hunforged : honest → ∀ frame, parseMessage rt message = .ok (.sealed frame) → Unforged rt keys c frame) :
    ∃ c', (∀ new : Broadcast, new.sender = i → result = .ok (.broadcast new.text new.senderName) →
        Wire rt (broadcasts ++ [new]) i keys honest user client' said relays heard compress c') ∧
      ((∀ text name, result ≠ .ok (.broadcast text name)) →
        Wire rt broadcasts i keys honest user client' said relays heard compress c') := by
  have hlast : ∀ new : Broadcast, new.sender = i →
      broadcastBy (broadcasts ++ [new]) i = broadcastBy broadcasts i ++ [(new.text, new.senderName)] := by
    intro new hsender
    simp [broadcastBy, List.filter_append, hsender]
  have hmore : ∀ new : Broadcast, ∀ {entries : List (Bytes × SealedFrame)},
      List.Forall₂ (Hub.Matches rt broadcasts) relays entries →
        List.Forall₂ (Hub.Matches rt (broadcasts ++ [new])) relays entries :=
    fun new _ hall => hall.imp fun _ _ hone => hone.append [new]
  cases hsealed : isSealed rt message with
  | true =>
      obtain ⟨frame, hparse⟩ := exists_frame_of_isSealed hsealed
      obtain ⟨hclient, hbroadcast⟩ := messageLoopBody_sealed hparse h.atServer
      rw [hbody] at hclient hbroadcast
      obtain rfl : client' = _ := hclient
      obtain ⟨hsession, hsent, hopened⟩ := (c .server).present_opened rt frame
      obtain ⟨hsends, hsound⟩ :=
        h.sound_present (fun hhonest => hunforged hhonest frame hparse) .server
      have hrelayed : List.Forall₂ (Hub.Matches rt broadcasts) relays ((c .server).present rt frame).sent := by
        rw [hsent]
        exact h.relayed
      refine ⟨c.set .server ((c .server).present rt frame), fun new hsender hnew => ?_, fun hnone => ?_⟩
      · refine ⟨h.atUser, congrArg some hsession.symm, h.said, hmore new hrelayed, hsends, hsound,
          fun hhonest => ?_, h.heard⟩
        obtain ⟨sender, hmessage, hname⟩ := (hbroadcast new.text new.senderName).mp hnew
        show _ = (((c .server).present rt frame).opened rt).map _
        rw [hlast new hsender, h.told hhonest, hopened, hmessage, List.map_append, hname]
        rfl
      · refine ⟨h.atUser, congrArg some hsession.symm, h.said, hrelayed, hsends, hsound, fun hhonest => ?_,
          h.heard⟩
        show _ = (((c .server).present rt frame).opened rt).map _
        rw [h.told hhonest, hopened]
        cases hmessage : ((c .server).session.open rt frame).1.bind (decodeMessage rt) with
        | error exn =>
            show _ = (_ ++ []).map _
            rw [List.append_nil]
        | ok handed => exact absurd ((hbroadcast _ _).mpr ⟨handed.2, hmessage, rfl⟩) (hnone _ _)
  | false =>
      have hsome : client.session.isSome = true := by
        rw [h.atServer]
        rfl
      obtain ⟨hclient, hquiet⟩ := messageLoopBody_other hsealed hsome
      rw [hbody] at hclient hquiet
      obtain rfl : client' = client := hclient
      exact ⟨c, fun new _ hnew => absurd hnew (hquiet _ _), fun _ => h⟩

end Wire

/-! ### One step of the server -/

/-- The frames of broadcasts that the server has made for a connection, with the numbers of the broadcasts. -/
def relaysOf (handed : Nat → List Written) (r : Nat) : List (Nat × Frame) :=
  (handed r).filterMap Written.relay?

/-- What is no frame of a broadcast is not noted among them. -/
theorem relaysOf_note {handed : Nat → List Written} {offer : Option (Nat × Written)}
    (h : ∀ i entry, offer = some (i, entry) → ∃ frame, entry = .reply frame) :
    relaysOf (Node.note handed offer) = relaysOf handed := by
  funext r
  cases offer with
  | none => rfl
  | some offered =>
      obtain ⟨i, entry⟩ := offered
      obtain ⟨frame, rfl⟩ := h i entry rfl
      exact Hub.filterMap_update_reply handed i frame r

/-- A frame of a broadcast is noted for its recipient. -/
theorem relaysOf_note_relayed (handed : Nat → List Written) (r b : Nat) (frame : Frame) :
    relaysOf (Node.note handed (some (r, .relayed b frame))) =
      update (relaysOf handed) r (relaysOf handed r ++ [(b, frame)]) := by
  funext j
  by_cases hj : j = r
  · rw [hj, update_self]
    exact Hub.filterMap_update_relayed handed r b frame
  · rw [update_of_ne hj]
    show (update handed r _ j).filterMap _ = _
    rw [update_of_ne hj]
    rfl

namespace Hub

variable {rt : Runtime} {s s' : Hub} {event : HubEvent} {handed : Nat → List Written} {failed : Nat → Bool}

/-- A received message is answered with a reply, if at all. -/
theorem offer_receive {i : Nat} {message : WsMessage} (j : Nat) (entry : Written)
    (h : HubEvent.offer rt s (.receive i message) = some (j, entry)) : ∃ frame, entry = .reply frame := by
  rw [HubEvent.offer] at h
  cases hresult : (messageLoopBody rt (s.client i) message).1 with
  | error exn =>
      rw [hresult] at h
      cases h
  | ok action =>
      rw [hresult] at h
      cases action with
      | reply frame => exact ⟨frame, (Prod.mk.inj (Option.some.inj h)).2.symm⟩
      | broadcast text name => cases h

/-- What a delivery offers. -/
theorem offer_deliver {i r b : Nat} {message : Broadcast} {result : Except Exn Frame} {client : RegisteredClient}
    (hentry : s.broadcasts[b]? = some message)
    (hframes : (s.client r).deliver rt message.text message.senderName = (result, client)) :
    HubEvent.offer rt s (.deliver i r b) = result.toOption.map fun frame => (r, Written.relayed b frame) := by
  simp only [HubEvent.offer, hentry, hframes]
  cases result with
  | error exn => rfl
  | ok frame => rfl

/-- What a step of the server that registers nobody does to the clients and to the log of the broadcasts. -/
inductive Effect (rt : Runtime) (s s' : Hub) : HubEvent → Prop where
  /-- A message is received, and perhaps broadcast. -/
  | received {i : Nat} {message : WsMessage} {result : Except Exn LoopAction} {client : RegisteredClient}
      (looping : s.thread i = .looping) (body : messageLoopBody rt (s.client i) message = (result, client))
      (clients : s'.client = update s.client i client)
      (log : (∃ new : Broadcast, new.sender = i ∧ result = .ok (.broadcast new.text new.senderName) ∧
          s'.broadcasts = s.broadcasts ++ [new]) ∨
        ((∀ text name, result ≠ .ok (.broadcast text name)) ∧ s'.broadcasts = s.broadcasts)) :
      Effect rt s s' (.receive i message)
  /-- The frame of a broadcast is made for a recipient, or cannot be made. -/
  | delivered {i r b : Nat} {todo : List Nat} {message : Broadcast} {result : Except Exn Frame}
      {client : RegisteredClient} (busy : s.thread i = .broadcasting b (r :: todo))
      (entry : s.broadcasts[b]? = some message)
      (frames : (s.client r).deliver rt message.text message.senderName = (result, client))
      (clients : s'.client = update s.client r client) (log : s'.broadcasts = s.broadcasts) :
      Effect rt s s' (.deliver i r b)
  /-- Nothing is done to them. -/
  | quiet {event : HubEvent} (clients : s'.client = s.client) (log : s'.broadcasts = s.broadcasts)
      (offers : event.offer rt s = none) : Effect rt s s' event

/-- The effect of a step; and nobody comes or goes. -/
theorem step_effect (hstep : HubStep rt event s s') (houtside : ∀ i client, event ≠ .join i client) :
    Effect rt s s' event ∧ ∀ j, s'.thread j = .absent ↔ s.thread j = .absent := by
  have hmoved : ∀ {i : Nat} {before after : Thread}, s.thread i = before → before ≠ .absent → after ≠ .absent →
      ∀ j, update s.thread i after j = .absent ↔ s.thread j = .absent := by
    intro i before after hbefore hthere hafter
    exact absent_update (hbefore ▸ hthere) hafter
  cases hstep with
  | join free fresh => exact absurd rfl (houtside _ _)
  | reply looping body healthy =>
      refine ⟨.received looping body rfl (.inr ⟨fun _ _ => ?_, rfl⟩), fun j => Iff.rfl⟩
      intro h
      cases h
  | replyFails looping body broken =>
      refine ⟨.received looping body rfl (.inr ⟨fun _ _ => ?_, rfl⟩),
        hmoved looping Thread.noConfusion Thread.noConfusion⟩
      intro h
      cases h
  | crash looping body =>
      refine ⟨.received looping body rfl (.inr ⟨fun _ _ => ?_, rfl⟩),
        hmoved looping Thread.noConfusion Thread.noConfusion⟩
      intro h
      cases h
  | broadcast looping body snapshot =>
      refine ⟨.received looping body rfl (.inl ⟨_, rfl, rfl, rfl⟩), ?_⟩
      exact hmoved looping Thread.noConfusion Thread.noConfusion
  | receiveFails looping => exact ⟨.quiet rfl rfl rfl, hmoved looping Thread.noConfusion Thread.noConfusion⟩
  | deliver busy log frames healthy =>
      exact ⟨.delivered busy log frames rfl rfl, hmoved busy Thread.noConfusion Thread.noConfusion⟩
  | deliverFails busy log frames failed =>
      exact ⟨.delivered busy log frames rfl rfl, hmoved busy Thread.noConfusion Thread.noConfusion⟩
  | drop busy => exact ⟨.quiet rfl rfl rfl, hmoved busy Thread.noConfusion Thread.noConfusion⟩
  | finish busy => exact ⟨.quiet rfl rfl rfl, hmoved busy Thread.noConfusion Thread.noConfusion⟩
  | leave going => exact ⟨.quiet rfl rfl rfl, hmoved going Thread.noConfusion Thread.noConfusion⟩
  | breaks => exact ⟨.quiet rfl rfl rfl, fun j => Iff.rfl⟩

/-- The broadcasts of the server, where a member is served as soon as its frame is made; everybody may be
skipped. -/
def offered (s : Hub) (handed : Nat → List Written) : Fanout.State Nat :=
  { s.view with log := fun r => (relaysOf handed r).map Prod.fst, failed := fun _ => true }

/-- A server that the fan-out sees as a sound state. -/
theorem sound_offered {v : Fanout.State Nat} (hsound : Fanout.Sound v)
    (htask : ∀ j, (s.thread j).task = v.task j) (hlog : ∀ r, (relaysOf handed r).map Prod.fst = v.log r)
    (hfailed : v.failed = fun _ => true) (hcalls : s.broadcasts.map callOf = v.calls) :
    Fanout.Sound (s.offered handed) := by
  have hstate : s.offered handed = v := by
    cases v
    simp only [offered, view, Fanout.State.mk.injEq]
    exact ⟨funext htask, funext hlog, hfailed.symm, hcalls⟩
  rw [hstate]
  exact hsound

/-- A thread that moves without serving anybody. -/
theorem offered_same {i : Nat} {thread : Thread} (h : Fanout.Sound (s.offered handed))
    (hoffer : ∀ j entry, event.offer rt s = some (j, entry) → ∃ frame, entry = .reply frame)
    (hthread : s'.thread = update s.thread i thread) (htask : thread.task = (s.thread i).task)
    (hlog : s'.broadcasts = s.broadcasts) :
    Fanout.Sound (s'.offered (Node.note handed (event.offer rt s))) := by
  refine sound_offered h ?_ ?_ rfl ?_
  · intro j
    rw [hthread, task_update, htask]
    exact congrFun (update_eq_self i s.view.task) j
  · intro r
    rw [relaysOf_note hoffer]
    rfl
  · rw [hlog]
    rfl

/-- Every step of the server is a step of the fan-out, or none. -/
theorem offered_step (hattended : s.Attended failed) (h : Fanout.Sound (s.offered handed))
    (hstep : HubStep rt event s s') : Fanout.Sound (s'.offered (Node.note handed (event.offer rt s))) := by
  have hnothing : ∀ {offer : Option (Nat × Written)}, offer = none → ∀ j entry, offer = some (j, entry) →
      ∃ frame, entry = Written.reply frame := by
    rintro offer rfl j entry hsome
    cases hsome
  have hstays : ∀ i, s.thread = update s.thread i (s.thread i) := fun i => (update_eq_self i s.thread).symm
  have hserved : ∀ r b frame j, (relaysOf (Node.note handed (some (r, .relayed b frame))) j).map Prod.fst =
      update (s.offered handed).log r ((s.offered handed).log r ++ [b]) j := by
    intro r b frame j
    rw [relaysOf_note_relayed]
    by_cases hj : j = r
    · rw [hj, update_self, update_self, List.map_append]
      rfl
    · rw [update_of_ne hj, update_of_ne hj]
      rfl
  cases hstep with
  | @join _ i client free fresh => exact offered_same h (hnothing rfl) rfl (by rw [free]; rfl) rfl
  | @reply _ i message frame client looping body healthy =>
      exact offered_same h offer_receive (hstays i) rfl rfl
  | replyFails looping body broken => exact offered_same h offer_receive rfl (by rw [looping]; rfl) rfl
  | crash looping body => exact offered_same h offer_receive rfl (by rw [looping]; rfl) rfl
  | @broadcast _ i message text senderName client todo looping body snapshot =>
      have hidle : (s.offered handed).task i = none := congrArg Thread.task looping
      have hself : i ∉ s.registry.filter (· ≠ i) := by
        intro hmem
        simpa using (List.mem_filter.mp hmem).2
      have hlength : (s.offered handed).calls.length = s.broadcasts.length := List.length_map _
      refine sound_offered (h.call hidle (hattended.nodup.filter _) hself snapshot) ?_ ?_ rfl ?_
      · intro j
        rw [hlength]
        exact task_update s i (.broadcasting s.broadcasts.length todo) j
      · intro r
        rw [relaysOf_note offer_receive]
        rfl
      · exact List.map_append
  | receiveFails looping => exact offered_same h (hnothing rfl) rfl (by rw [looping]; rfl) rfl
  | @deliver _ i r b todo message frame client busy log frames healthy =>
      have hbusy : (s.offered handed).task i = some (b, r :: todo) := congrArg Thread.task busy
      refine sound_offered (h.serve hbusy) (task_update s i (.broadcasting b todo)) ?_ rfl rfl
      rw [offer_deliver log frames]
      exact hserved r b frame
  | @deliverFails _ i r b todo message result client busy log frames broken =>
      have hbusy : (s.offered handed).task i = some (b, r :: todo) := congrArg Thread.task busy
      rw [offer_deliver log frames]
      cases result with
      | error exn =>
          exact sound_offered (h.skip hbusy rfl) (task_update s i (.dropping r b todo)) (fun _ => rfl) rfl rfl
      | ok frame =>
          exact sound_offered (h.serve hbusy) (task_update s i (.dropping r b todo)) (hserved r b frame) rfl rfl
  | drop busy => exact offered_same h (hnothing rfl) rfl (by rw [busy]; rfl) rfl
  | @finish _ i b busy =>
      have hbusy : (s.offered handed).task i = some (b, []) := congrArg Thread.task busy
      exact sound_offered (h.finish hbusy) (task_update s i .looping) (fun _ => rfl) rfl rfl
  | leave going => exact offered_same h (hnothing rfl) rfl (by rw [going]; rfl) rfl
  | breaks => exact sound_offered h (fun _ => rfl) (fun _ => rfl) rfl rfl

end Hub

/-! ### The room -/

theorem mem_relaysOf {handed : Nat → List Written} {r b : Nat} {frame : Frame} :
    (b, frame) ∈ relaysOf handed r ↔ Written.relayed b frame ∈ handed r := by
  rw [relaysOf, List.mem_filterMap]
  constructor
  · rintro ⟨written, hwritten, hrelay⟩
    cases written with
    | reply _ => cases hrelay
    | relayed number other =>
        obtain ⟨rfl, rfl⟩ := Prod.mk.inj (Option.some.inj hrelay)
        exact hwritten
  · intro h
    exact ⟨_, h, rfl⟩

/-- What an end of a connection has made, it has sealed. -/
theorem Wire.exists_entry {rt : Runtime} {broadcasts : List Broadcast} {i : Nat} {keys : SessionKeys}
    {honest : Prop} {user : ChatClient} {client : RegisteredClient} {s : AttackedRoom} {j : Nat}
    {heard : List (WsMessage × (String × String))} {compress : Role → Bool} {c : Channel}
    (h : Wire rt broadcasts i keys honest user client (s.said j) (relaysOf s.handed j) heard compress c)
    {frame : SealedFrame} {role : Role} (hmade : s.Made j frame role) :
    ∃ entry ∈ (c role).sent, entry.2 = frame := by
  cases role with
  | client =>
      obtain ⟨letter, hletter, hframe⟩ := hmade
      obtain ⟨n, hn, rfl⟩ := List.getElem_of_mem hletter
      have hn' : n < (c .client).sent.length := h.said.length_eq ▸ hn
      obtain ⟨hsealed, _⟩ := List.Forall₂.get h.said hn hn'
      refine ⟨_, List.getElem_mem hn', ?_⟩
      exact (Frame.sealed.inj (hframe.symm.trans hsealed)).symm
  | server =>
      obtain ⟨b, hhanded⟩ := hmade
      obtain ⟨n, hn, hentry⟩ := List.getElem_of_mem (mem_relaysOf.mpr hhanded)
      have hn' : n < (c .server).sent.length := h.relayed.length_eq ▸ hn
      obtain ⟨hsealed, _⟩ := List.Forall₂.get h.relayed hn hn'
      refine ⟨_, List.getElem_mem hn', ?_⟩
      rw [List.get_eq_getElem, hentry] at hsealed
      exact (Frame.sealed.inj hsealed).symm

namespace AttackedRoom

variable {rt : Runtime} {insider : Nat → Prop} {s s' : AttackedRoom}

/-- What holds of connection `i` of the room. -/
def WireOf (rt : Runtime) (insider : Nat → Prop) (s : AttackedRoom) (i : Nat) (compress : Role → Bool)
    (c : Channel) : Prop :=
  Wire rt s.hub.broadcasts i (s.keys i) (¬ insider i) (s.user i) (s.hub.client i) (s.said i)
    (relaysOf s.handed i) (s.heard i) compress c

/-- Nothing has happened on connection `i`. -/
structure Untouched (s : AttackedRoom) (i : Nat) : Prop where
  said : s.said i = []
  relays : relaysOf s.handed i = []
  heard : s.heard i = []
  broadcasts : broadcastBy s.hub.broadcasts i = []

/-- The message was a chat frame in the clear, with this text and sender. -/
def FromChat (rt : Runtime) (entry : WsMessage × (String × String)) : Prop :=
  parseMessage rt entry.1 = .ok (.chat entry.2.1 entry.2.2)

/-- What holds of a room under attack at any time. -/
structure Sound (rt : Runtime) (insider : Nat → Prop) (s : AttackedRoom) : Prop where
  attended : ∃ failed, s.hub.Attended failed
  offered : Fanout.Sound (s.hub.offered s.handed)
  own : ∀ i j, s.hub.thread i ≠ .absent → s.hub.thread j ≠ .absent → i ≠ j →
    ∀ role role', (s.keys i).mac role ≠ (s.keys j).mac role'
  wires : ∀ i, s.hub.thread i ≠ .absent → ∃ compress c, s.WireOf rt insider i compress c
  untouched : ∀ i, s.hub.thread i = .absent → s.Untouched i
  plain : ∀ r, ∀ entry ∈ s.heard r, isSealed rt entry.1 = false → FromChat rt entry

/-- An end of a connection that has made a frame is there. -/
theorem Sound.present_of_made (h : s.Sound rt insider) {j : Nat} {frame : SealedFrame} {role : Role}
    (hmade : s.Made j frame role) : s.hub.thread j ≠ .absent := by
  intro hnone
  obtain ⟨hsaid, hrelays, _, _⟩ := h.untouched j hnone
  cases role with
  | client =>
      obtain ⟨letter, hletter, _⟩ := hmade
      rw [hsaid] at hletter
      cases hletter
  | server =>
      obtain ⟨b, hhanded⟩ := hmade
      have hrelay := mem_relaysOf.mpr hhanded
      rw [hrelays] at hrelay
      cases hrelay

/-- What the attacker can deliver is not forged on any honest connection: the tag was made with its key, and
only its two ends have that. -/
theorem Sound.unforged (h : s.Sound rt insider) {message : WsMessage} (hunforged : s.Unforged rt insider message)
    {i : Nat} (hi : s.hub.thread i ≠ .absent) {compress : Role → Bool} {c : Channel}
    (hwire : s.WireOf rt insider i compress c) (hhonest : ¬ insider i) (frame : SealedFrame)
    (hparse : parseMessage rt message = .ok (.sealed frame)) : Priestly.Unforged rt (s.keys i) c frame := by
  intro role input hclaims htag
  obtain ⟨j, maker, original, hmade, hkey, hsame⟩ := hunforged frame hparse i hi hhonest role input hclaims htag
  obtain rfl : j = i := by
    by_contra hji
    exact h.own j i (h.present_of_made hmade) hi hji maker role hkey
  obtain ⟨entry, hentry, rfl⟩ := hwire.exists_entry hmade
  exact ⟨maker, entry, hentry, hsame⟩

/-- The connection stands as it did. -/
structure SameWire (s s' : AttackedRoom) (i : Nat) : Prop where
  user : s'.user i = s.user i
  client : s'.hub.client i = s.hub.client i
  said : s'.said i = s.said i
  relays : relaysOf s'.handed i = relaysOf s.handed i
  heard : s'.heard i = s.heard i

/-- A connection moves, and perhaps has a message broadcast, while the others stand as they did. -/
theorem Sound.advance (h : s.Sound rt insider) {i : Nat} (hi : s.hub.thread i ≠ .absent) (more : List Broadcast)
    (hattended : ∃ failed, s'.hub.Attended failed) (hoffered : Fanout.Sound (s'.hub.offered s'.handed))
    (hwire : ∃ compress c, s'.WireOf rt insider i compress c) (hsame : ∀ j, j ≠ i → SameWire s s' j)
    (hkeys : s'.keys = s.keys)
    (hplain : ∀ r, ∀ entry ∈ s'.heard r, isSealed rt entry.1 = false → FromChat rt entry)
    (hlog : s'.hub.broadcasts = s.hub.broadcasts ++ more) (hmore : ∀ message ∈ more, message.sender = i)
    (habsent : ∀ j, s'.hub.thread j = .absent ↔ s.hub.thread j = .absent) : s'.Sound rt insider := by
  have hthere : ∀ j, s'.hub.thread j ≠ .absent → s.hub.thread j ≠ .absent :=
    fun j hj hnone => hj ((habsent j).mpr hnone)
  constructor
  case attended => exact hattended
  case offered => exact hoffered
  case own =>
    intro j k hj hk
    rw [hkeys]
    exact h.own j k (hthere j hj) (hthere k hk)
  case wires =>
    intro j hj
    by_cases hji : j = i
    · rw [hji]
      exact hwire
    · obtain ⟨compress, c, hbefore⟩ := h.wires j (hthere j hj)
      obtain ⟨huser, hclient, hsaid, hrelays, hheard⟩ := hsame j hji
      refine ⟨compress, c, ?_⟩
      rw [WireOf, hlog, hkeys, huser, hclient, hsaid, hrelays, hheard]
      apply hbefore.log
      intro message hmessage hsender
      exact hji (hsender.symm.trans (hmore message hmessage))
  case untouched =>
    intro j hj
    rw [habsent j] at hj
    have hji : j ≠ i := by
      rintro rfl
      exact hi hj
    obtain ⟨_, _, hsaid, hrelays, hheard⟩ := hsame j hji
    obtain ⟨hsaid', hrelays', hheard', hnone⟩ := h.untouched j hj
    refine ⟨hsaid.trans hsaid', hrelays.trans hrelays', hheard.trans hheard', ?_⟩
    have hothers : more.filter (·.sender = j) = [] := by
      apply List.filter_eq_nil_iff.mpr
      intro message hmessage hsender
      exact hji ((of_decide_eq_true hsender).symm.trans (hmore message hmessage))
    rw [hlog, broadcastBy, List.filter_append, hothers, List.append_nil]
    exact hnone
  case plain => exact hplain

/-- A connection is registered, with keys of its own. -/
theorem Sound.join (h : s.Sound rt insider) {i : Nat} {keys : SessionKeys} {compress compress' : Bool}
    {user : ChatClient} {client : RegisteredClient} {hub : Hub}
    (atUser : user.session = some (.new keys true compress))
    (atServer : client.session = some (.new keys false compress'))
    (own : ∀ j, s.hub.thread j ≠ .absent → ∀ role role', keys.mac role ≠ (s.keys j).mac role')
    (hstep : HubStep rt (.join i client) s.hub hub) :
    Sound rt insider { s with hub, user := update s.user i user, keys := update s.keys i keys } := by
  obtain ⟨failed, hbefore⟩ := h.attended
  have hattended := hbefore.step hstep
  have hoffered := Hub.offered_step hbefore h.offered hstep
  cases hstep with
  | join free fresh =>
      have hthere : ∀ {j : Nat}, j ≠ i → update s.hub.thread i .looping j ≠ .absent →
          s.hub.thread j ≠ .absent := by
        intro j hji hj
        rw [update_of_ne hji] at hj
        exact hj
      constructor
      case attended => exact hattended
      case offered => exact hoffered
      case own =>
        intro j k hj hk hjk role role'
        by_cases hji : j = i
        · have hki : k ≠ i := fun hki => hjk (hji.trans hki.symm)
          simp only [hji, update_self, update_of_ne hki]
          exact own k (hthere hki hk) role role'
        · by_cases hki : k = i
          · simp only [hki, update_self, update_of_ne hji]
            exact (own j (hthere hji hj) role' role).symm
          · simp only [update_of_ne hji, update_of_ne hki]
            exact h.own j k (hthere hji hj) (hthere hki hk) hjk role role'
      case wires =>
        intro j hj
        by_cases hji : j = i
        · subst hji
          obtain ⟨hsaid, hrelays, hheard, hnone⟩ := h.untouched j free
          simp only [WireOf, update_self, hsaid, hrelays, hheard]
          exact Wire.start atUser atServer hnone
        · obtain ⟨old, c, hold⟩ := h.wires j (hthere hji hj)
          refine ⟨old, c, ?_⟩
          simp only [WireOf, update_of_ne hji]
          exact hold
      case untouched =>
        intro j hj
        have hji : j ≠ i := by
          rintro rfl
          simp only [update_self] at hj
          cases hj
        simp only [update_of_ne hji] at hj
        obtain ⟨hsaid, hrelays, hheard, hnone⟩ := h.untouched j hj
        exact ⟨hsaid, hrelays, hheard, hnone⟩
      case plain => exact h.plain

/-- What only concerns the user of one connection. -/
theorem Sound.use (h : s.Sound rt insider) {i : Nat} (hi : s.hub.thread i ≠ .absent) {user : Nat → ChatClient}
    {said : Nat → List Letter} {heard : Nat → List (WsMessage × (String × String))}
    (huser : ∀ j, j ≠ i → user j = s.user j) (hsaid : ∀ j, j ≠ i → said j = s.said j)
    (hheard : ∀ j, j ≠ i → heard j = s.heard j)
    (hwire : ∃ compress c, Wire rt s.hub.broadcasts i (s.keys i) (¬ insider i) (user i) (s.hub.client i) (said i)
      (relaysOf s.handed i) (heard i) compress c)
    (hplain : ∀ r, ∀ entry ∈ heard r, isSealed rt entry.1 = false → FromChat rt entry) :
    Sound rt insider { s with user, said, heard } := by
  refine h.advance hi [] h.attended h.offered hwire ?_ rfl hplain (List.append_nil _).symm ?_ fun _ => Iff.rfl
  · exact fun j hj => ⟨huser j hj, rfl, hsaid j hj, rfl, hheard j hj⟩
  · intro message hmessage
    cases hmessage

/-- The server receives what is delivered to it, takes a step by itself, or loses a connection. -/
theorem Sound.work (h : s.Sound rt insider) {event : HubEvent} {hub : Hub}
    (outside : ∀ i client, event ≠ .join i client)
    (unforged : ∀ i message, event = .receive i message → s.Unforged rt insider message)
    (hstep : HubStep rt event s.hub hub) :
    Sound rt insider { s with hub, handed := Node.note s.handed (event.offer rt s.hub) } := by
  obtain ⟨failed, hbefore⟩ := h.attended
  have hattended := hbefore.step hstep
  have hoffered := Hub.offered_step hbefore h.offered hstep
  obtain ⟨heffect, habsent⟩ := Hub.step_effect hstep outside
  have hnone : ∀ {i : Nat}, ∀ message ∈ ([] : List Broadcast), message.sender = i := by
    intro i message hmessage
    cases hmessage
  cases heffect with
  | @received i message result client looping body clients log =>
      have hi : s.hub.thread i ≠ .absent := by
        rw [looping]
        exact Thread.noConfusion
      have hrelays : relaysOf (Node.note s.handed (HubEvent.offer rt s.hub (.receive i message))) =
          relaysOf s.handed := relaysOf_note Hub.offer_receive
      obtain ⟨compress, c, hwire⟩ := h.wires i hi
      obtain ⟨c', hbroadcast, hquiet⟩ := hwire.receive body fun hhonest =>
        h.unforged (unforged i message rfl) hi hwire hhonest
      have hsame : ∀ j, j ≠ i → SameWire s
          { s with hub, handed := Node.note s.handed (HubEvent.offer rt s.hub (.receive i message)) } j := by
        intro j hj
        refine ⟨rfl, ?_, rfl, congrFun hrelays j, rfl⟩
        rw [clients, update_of_ne hj]
      rcases log with ⟨new, hsender, hnew, hlog⟩ | ⟨hother, hlog⟩
      · refine h.advance hi [new] hattended hoffered ⟨compress, c', ?_⟩ hsame rfl h.plain hlog ?_ habsent
        · rw [WireOf, hlog, clients, update_self, hrelays]
          exact hbroadcast new hsender hnew
        · intro message hmessage
          rw [List.mem_singleton.mp hmessage]
          exact hsender
      · refine h.advance hi [] hattended hoffered ⟨compress, c', ?_⟩ hsame rfl h.plain ?_ hnone habsent
        · rw [WireOf, hlog, clients, update_self, hrelays]
          exact hquiet hother
        · rw [hlog, List.append_nil]
  | @delivered i r b todo message result client busy entry frames clients log =>
      have hr : s.hub.thread r ≠ .absent := hbefore.recipient busy
      obtain ⟨compress, c, hwire⟩ := h.wires r hr
      obtain ⟨c', hmade, hfails⟩ := hwire.deliver entry frames
      have hoffer : HubEvent.offer rt s.hub (.deliver i r b) =
          result.toOption.map fun frame => (r, Written.relayed b frame) := Hub.offer_deliver entry frames
      refine h.advance hr [] hattended hoffered ⟨compress, c', ?_⟩ ?_ rfl h.plain ?_ hnone habsent
      · rw [WireOf, log, clients, update_self, hoffer]
        cases result with
        | ok frame =>
            show Wire _ _ _ _ _ _ _ _ (relaysOf (Node.note s.handed (some (r, .relayed b frame))) r) _ _ _
            rw [relaysOf_note_relayed, update_self]
            exact hmade frame rfl
        | error exn => exact hfails exn rfl
      · intro j hj
        refine ⟨rfl, ?_, rfl, ?_, rfl⟩
        · rw [clients, update_of_ne hj]
        · rw [hoffer]
          cases result with
          | ok frame =>
              show relaysOf (Node.note s.handed (some (r, .relayed b frame))) j = _
              rw [relaysOf_note_relayed, update_of_ne hj]
          | error exn => rfl
      · rw [log, List.append_nil]
  | quiet clients log offers =>
      have hhanded : Node.note s.handed (event.offer rt s.hub) = s.handed := by
        rw [offers]
        rfl
      constructor
      case attended => exact hattended
      case offered => exact hoffered
      case own =>
        exact fun j k hj hk => h.own j k (fun hgone => hj ((habsent j).mpr hgone))
          fun hgone => hk ((habsent k).mpr hgone)
      case wires =>
        intro j hj
        obtain ⟨compress, c, hwire⟩ := h.wires j fun hgone => hj ((habsent j).mpr hgone)
        refine ⟨compress, c, ?_⟩
        rw [WireOf, log, clients, hhanded]
        exact hwire
      case untouched =>
        intro j hj
        obtain ⟨hsaid, hrelays, hheard, hquiet⟩ := h.untouched j ((habsent j).mp hj)
        refine ⟨hsaid, ?_, hheard, ?_⟩
        · rw [hhanded]
          exact hrelays
        · rw [log]
          exact hquiet
      case plain => exact h.plain

/-- Every step keeps a room under attack sound. -/
theorem Sound.step (h : s.Sound rt insider) (hstep : AttackStep rt insider s s') :
    s'.Sound rt insider := by
  have hsame : ∀ {α : Type} (f : Nat → α) (i : Nat) (value : α) (j : Nat), j ≠ i → update f i value j = f j :=
    fun f i value j hj => update_of_ne hj value f
  cases hstep with
  | join atUser atServer own step => exact h.join atUser atServer own step
  | @say i text sender frame user joined send =>
      obtain ⟨compress, c, hwire⟩ := h.wires i joined
      obtain ⟨c', hmade, _⟩ := hwire.say send
      refine h.use joined (hsame _ i _) (hsame _ i _) (fun _ _ => rfl) ⟨compress, c', ?_⟩ h.plain
      simp only [update_self]
      exact hmade frame rfl
  | @sayFails i text sender exn user joined send =>
      obtain ⟨compress, c, hwire⟩ := h.wires i joined
      obtain ⟨c', _, hfails⟩ := hwire.say send
      refine h.use joined (hsame _ i _) (fun _ _ => rfl) (fun _ _ => rfl) ⟨compress, c', ?_⟩ h.plain
      simp only [update_self]
      exact hfails exn rfl
  | @hear r message handed user joined unforged receive =>
      obtain ⟨compress, c, hwire⟩ := h.wires r joined
      obtain ⟨c', hhanded, _⟩ := hwire.hear receive fun hhonest =>
        h.unforged unforged joined hwire hhonest
      refine h.use joined (hsame _ r _) (fun _ _ => rfl) (hsame _ r _) ⟨compress, c', ?_⟩ ?_
      · simp only [update_self]
        exact hhanded handed rfl
      · intro k entry hentry hclear
        by_cases hk : k = r
        · rw [hk, update_self, List.mem_append, List.mem_singleton] at hentry
          rcases hentry with hold | rfl
          · exact h.plain r entry hold hclear
          · obtain ⟨_, hchat⟩ := ChatClient.receive_other (s.user r) hclear
            exact hchat handed (congrArg Prod.fst receive)
        · rw [update_of_ne hk] at hentry
          exact h.plain k entry hentry hclear
  | @hearFails r message exn user joined unforged receive =>
      obtain ⟨compress, c, hwire⟩ := h.wires r joined
      obtain ⟨c', _, hfails⟩ := hwire.hear receive fun hhonest =>
        h.unforged unforged joined hwire hhonest
      refine h.use joined (hsame _ r _) (fun _ _ => rfl) (fun _ _ => rfl) ⟨compress, c', ?_⟩ h.plain
      simp only [update_self]
      exact hfails exn rfl
  | work outside unforged step => exact h.work outside unforged step

/-- Every room that a run reaches is sound. -/
theorem Run.sound (h : Run rt insider s) : s.Sound rt insider := by
  induction h with
  | refl =>
      have hoffered : Fanout.Sound (start.hub.offered start.handed) :=
        Hub.sound_offered (Fanout.Sound.start.fail_all) (fun _ => rfl) (fun _ => rfl) rfl rfl
      constructor
      case attended => exact ⟨_, Hub.attended_start⟩
      case offered => exact hoffered
      case own => exact fun i _ hi => absurd rfl hi
      case wires => exact fun i hi => absurd rfl hi
      case untouched => exact fun i _ => ⟨rfl, rfl, rfl, rfl⟩
      case plain => exact fun r entry hentry => absurd hentry List.not_mem_nil
  | tail _ hstep ih => exact ih.step hstep

/-! ### What the attacker cannot do -/

/-- A room withstands the attack. The server has broadcast of each honest user only what that user has said, in
order and each saying at most once; and what an honest user has heard through sealed frames are broadcasts of
others that were made while it was registered, those of each sender in their order and each at most once. The rest
that a user has heard came as chat in the clear. -/
structure Withstands (rt : Runtime) (insider : Nat → Prop) (s : AttackedRoom) : Prop where
  spoken : ∀ i, ¬ insider i →
    (broadcastBy s.hub.broadcasts i).Sublist ((s.said i).map (Letter.told (s.hub.client i).name))
  heard : ∀ r, ¬ insider r → ∃ messages : List Broadcast,
    throughSeal rt (s.heard r) = messages.map (fun message => (message.text, message.senderName)) ∧
    (∀ message ∈ messages, r ∈ message.registered ∧ r ≠ message.sender) ∧
    ∀ i, (messages.filter (·.sender = i)).Sublist (s.hub.broadcasts.filter (·.sender = i))
  rest : ∀ r, ∀ entry ∈ s.heard r, isSealed rt entry.1 = false → FromChat rt entry

end AttackedRoom

section Messages

variable {rt : Runtime}

/-- The message comes out of its own encoding. -/
theorem messageOf_encodeMessage (hjson : JsonRoundTrip rt) (text sender : String) :
    messageOf rt (encodeMessage rt text sender) = some (text, sender) := by
  rw [messageOf, decodeMessage_encodeMessage hjson]
  rfl

/-- What an end of a sound channel opens are messages that the other end has sealed. -/
theorem Channel.Sound.opened_sublist {keys : SessionKeys} {compress : Role → Bool} {c : Channel}
    (h : c.Sound rt keys compress) (role : Role) :
    ((c role).opened rt).Sublist (((c role.peer).sent.map Prod.fst).filterMap (messageOf rt)) := by
  have hplaintexts := (h.matched role).map Prod.snd
  rw [List.map_map, List.map_map] at hplaintexts
  have hmessages := hplaintexts.filterMap (messageOf rt)
  rw [List.filterMap_map] at hmessages
  exact hmessages

/-- The messages that a user has sealed are those it has said. -/
theorem said_messages (hjson : JsonRoundTrip rt) {said : List Letter} {sent : List (Bytes × SealedFrame)}
    (h : List.Forall₂ (Letter.Encloses (encoding rt)) said sent) :
    (sent.map Prod.fst).filterMap (messageOf rt) = said.map (·.1) := by
  induction h with
  | nil => rfl
  | @cons letter entry said sent hone _ ih =>
      have hmessage : messageOf rt entry.1 = some letter.1 := by
        rw [hone.2]
        exact messageOf_encodeMessage hjson letter.1.1 letter.1.2
      rw [List.map_cons, List.filterMap_cons_some hmessage, ih, List.map_cons]

/-- The messages that the server has sealed for a client are those of the broadcasts. -/
theorem relayed_messages (hjson : JsonRoundTrip rt) {broadcasts : List Broadcast} {relays : List (Nat × Frame)}
    {sent : List (Bytes × SealedFrame)} (h : List.Forall₂ (Hub.Matches rt broadcasts) relays sent) :
    (sent.map Prod.fst).filterMap (messageOf rt) =
      (Fanout.pick broadcasts (relays.map Prod.fst)).map fun message => (message.text, message.senderName) := by
  induction h with
  | nil => rfl
  | @cons relay entry relays sent hone _ ih =>
      obtain ⟨_, message, hlog, hplaintext⟩ := hone
      have hmessage : messageOf rt entry.1 = some (message.text, message.senderName) := by
        rw [hplaintext]
        exact messageOf_encodeMessage hjson message.text message.senderName
      rw [List.map_cons, List.filterMap_cons_some hmessage, ih, List.map_cons, Fanout.pick, Fanout.pick,
        List.filterMap_cons_some hlog, List.map_cons]

end Messages

namespace AttackedRoom

/-- A sound room withstands the attack. -/
theorem Sound.withstands {rt : Runtime} {insider : Nat → Prop} {s : AttackedRoom} (h : s.Sound rt insider)
    (hjson : JsonRoundTrip rt) : s.Withstands rt insider := by
  constructor
  case spoken =>
    intro i hhonest
    by_cases hi : s.hub.thread i = .absent
    · obtain ⟨_, _, _, hnone⟩ := h.untouched i hi
      rw [hnone]
      exact List.nil_sublist _
    · obtain ⟨compress, c, hwire⟩ := h.wires i hi
      have hopened := (hwire.sound hhonest).opened_sublist .server
      have hsaid : ((c .server).opened rt).Sublist ((s.said i).map (·.1)) := by
        rw [← said_messages hjson hwire.said]
        exact hopened
      have hnamed := hsaid.map (underName (s.hub.client i).name)
      rw [List.map_map] at hnamed
      rw [hwire.told hhonest]
      exact hnamed
  case heard =>
    intro r hhonest
    by_cases hr : s.hub.thread r = .absent
    · obtain ⟨_, _, hheard, _⟩ := h.untouched r hr
      refine ⟨[], ?_, fun message hmessage => absurd hmessage List.not_mem_nil, fun i => List.nil_sublist _⟩
      rw [hheard]
      rfl
    · obtain ⟨compress, c, hwire⟩ := h.wires r hr
      have hopened := (hwire.sound hhonest).opened_sublist .client
      have hpicked : (throughSeal rt (s.heard r)).Sublist
          ((Fanout.pick s.hub.broadcasts ((relaysOf s.handed r).map Prod.fst)).map fun message =>
            (message.text, message.senderName)) := by
        rw [hwire.heard hhonest, ← relayed_messages hjson hwire.relayed]
        exact hopened
      obtain ⟨messages, hmessages, hheard⟩ := List.sublist_map_iff.mp hpicked
      refine ⟨messages, hheard, fun message hmessage => ?_, fun i => ?_⟩
      · exact Hub.mem_audience.mp (h.offered.mem_pick rfl (fun _ hb => hb) (hmessages.subset hmessage))
      · exact (hmessages.filter _).trans (h.offered.pick_of_sender rfl (List.Sublist.refl _) i)
  case rest => exact h.plain

end AttackedRoom

/-- A protected node withstands an attacker on the network, even one with clients of its own in the room. Let
payloads survive their JSON text, and let each handshake yield keys of its own. Then in every run, in which the
attacker delivers to either end of any connection what it likes, as often and in whatever order it likes, only
without tags it cannot compute, the server broadcasts of an honest user what the user has said and nothing else,
and an honest user hears through sealed frames the broadcasts of others and nothing else. -/
theorem room_withstands (rt : Runtime) (hjson : JsonRoundTrip rt) (insider : Nat → Prop) {s : AttackedRoom}
    (hrun : AttackedRoom.Run rt insider s) : s.Withstands rt insider :=
  hrun.sound.withstands hjson

/-! ### Two users and an attacker -/

section Sample

/-- The inputs of the MAC when the first of two users says `hi`. -/
def attackSamples : List (Bytes × Bytes) :=
  [((relayKeys 0).clientMac, toBytesBE 8 0 ++ toBytesBE 8 1 ++ [0x43, 0x00] ++
      encodeMessage (sampleRuntime hmacSha256) "hi" "ann"),
    ((relayKeys 1).serverMac, toBytesBE 8 0 ++ toBytesBE 8 1 ++ [0x53, 0x00] ++
      encodeMessage (sampleRuntime hmacSha256) "hi" "ann")]

/-- The frame of the first message of a session that does not compress. -/
theorem exists_first_frame (rt : Runtime) (keys : SessionKeys) (isClient : Bool) (text sender : String) :
    ∃ frame, (outgoing rt (some (.new keys isClient false)) text sender).1 = .ok (.sealed frame) := by
  have hok : ∃ frame, ((SessionState.new keys isClient false).seal rt.hmac
      (encodeMessage rt text sender)).1 = .ok frame := by
    apply SessionState.seal_ok_iff.mpr
    simp [SessionState.new]
  obtain ⟨frame, hframe⟩ := hok
  refine ⟨frame, ?_⟩
  rw [outgoing_fst, hframe]
  rfl

/-- What an end of a connection has made can be delivered, as its tag is right under one key only. -/
theorem AttackedRoom.Run.unforged_of_made {rt : Runtime} {insider : Nat → Prop} {s : AttackedRoom}
    (hfree : CollisionFree rt.hmac Set.univ) (hrun : AttackedRoom.Run rt insider s) {j : Nat}
    {frame : SealedFrame} {maker : Role} (hmade : s.Made j frame maker)
    (hparse : parseMessage rt (wire rt (.sealed frame)) = .ok (.sealed frame)) :
    s.Unforged rt insider (wire rt (.sealed frame)) := by
  intro other hother i _ _ role input hclaims htag
  obtain rfl := Frame.sealed.inj (Except.ok.inj (hparse.symm.trans hother))
  refine ⟨j, maker, frame, hmade, ?_, hclaims⟩
  obtain ⟨compress, c, hwire⟩ := hrun.sound.wires j (hrun.sound.present_of_made hmade)
  obtain ⟨entry, hentry, rfl⟩ := hwire.exists_entry hmade
  obtain ⟨_, input', _, _, hframe⟩ := ((hwire.sends maker).seals entry hentry).parts
  have htag' : entry.2.tag = sign rt.hmac ((s.keys j).mac maker) input' := by
    rw [hframe, Channel.base_txMac]
  have hsign := hexString_injective (htag'.symm.trans htag)
  exact (Prod.mk.inj (hfree (Set.mem_univ (_, _)) (Set.mem_univ (_, _)) hsign)).1

/-- The first user says `hi`; the attacker has the second user hear something in the clear before it delivers
the frame. -/
theorem room_withstands_injection :
    ∃ s : AttackedRoom, AttackedRoom.Run (sampleRuntime (sampledMac attackSamples)) (fun _ => False) s ∧
      (s.heard 1).map Prod.snd = [("give me the password", "ann"), ("hi", "ann")] ∧
      throughSeal (sampleRuntime (sampledMac attackSamples)) (s.heard 1) = [("hi", "ann")] ∧
      s.Withstands (sampleRuntime (sampledMac attackSamples)) fun _ => False := by
  have hfree : CollisionFree (sampleRuntime (sampledMac attackSamples)).hmac Set.univ :=
    collisionFree_sampledMac (by decide +kernel) _
  have hjson := jsonRoundTrip_sample (sampledMac attackSamples)
  generalize hrt : sampleRuntime (sampledMac attackSamples) = rt at *
  have hparse : ∀ frame : Frame, frame.Sampled → parseMessage rt (wire rt frame) = .ok frame := by
    intro frame hframe
    rw [← hrt]
    exact loads_dumps_sample _ hframe
  let user (i : UInt8) : ChatClient := { ChatClient.new with session := some (.new (relayKeys i) true false) }
  let client (name : String) (i : UInt8) : RegisteredClient :=
    { name, session := some (.new (relayKeys i) false false) }
  -- The frames, and what the two ends make of them.
  obtain ⟨up, hup⟩ := exists_first_frame rt (relayKeys 0) true "hi" "ann"
  obtain ⟨down, hdown⟩ := exists_first_frame rt (relayKeys 1) false "hi" "ann"
  have hdecodes := decodeMessage_encoding hjson
  obtain ⟨_, htakenUp, _⟩ :=
    ((Direction.start (relayKeys 0) true false false).write (le_refl 0) hup).take hdecodes rfl
  obtain ⟨_, htakenDown, _⟩ :=
    ((Direction.start (relayKeys 1) false false false).write (le_refl 0) hdown).take hdecodes rfl
  have hbody :=
    Taken.messageLoopBody (show Taken rt (client "user1" 0).session _ _ _ from htakenUp) (hparse _ rfl)
  have hsend : (user 0).send rt "hi" "ann" = (.ok (.sealed up), _) :=
    (ChatClient.send_eq rt "hi" "ann" (user 0)).trans (Prod.ext hup rfl)
  have hdeliver : (client "user2" 1).deliver rt "hi" "ann" = (.ok (.sealed down), _) :=
    (RegisteredClient.deliver_eq rt "hi" "ann" (client "user2" 1)).trans (Prod.ext hdown rfl)
  have hhear := Taken.receive (show Taken rt (user 1).session _ _ _ from htakenDown) (hparse _ rfl)
  have hchat := hparse (.chat "give me the password" "ann") rfl
  have hclear : (user 1).receive rt (wire rt (.chat "give me the password" "ann")) =
      (.ok ("give me the password", "ann"), user 1) := by
    rw [ChatClient.receive, hchat]
  -- The run.
  have hstart : AttackedRoom.Run rt (fun _ => False) .start := .refl
  have hjoin := hstart.tail (@AttackStep.join _ _ _ 0 (relayKeys 0) false false (user 0) (client "user1" 0) _
    rfl rfl (fun j hj => absurd rfl hj) (.join rfl (.inr ⟨_, _, rfl⟩)))
  have hjoin' := hjoin.tail (@AttackStep.join _ _ _ 1 (relayKeys 1) false false (user 1) (client "user2" 1) _
    rfl rfl (fun j hj => by
      by_cases hzero : j = 0
      · subst hzero
        have hkeys : ∀ role role', (relayKeys 1).mac role ≠ (relayKeys 0).mac role' := by
          intro role role'
          cases role <;> cases role' <;> decide
        exact hkeys
      · exact absurd (update_of_ne hzero _ _) hj) (.join rfl (.inr ⟨_, _, rfl⟩)))
  have hsay := hjoin'.tail (@AttackStep.say _ _ _ 0 "hi" "ann" _ _ Thread.noConfusion hsend)
  -- From here on the room is only known by what matters of it.
  obtain ⟨s₀, hsay, hlooping, hjoined₀, hregistry, hnone, hsaid, hclient₀, hclient₁, huser₀, hheard₀, hworks₀⟩ :
      ∃ s : AttackedRoom, AttackedRoom.Run rt (fun _ => False) s ∧ s.hub.thread 0 = .looping ∧
        s.hub.thread 1 = .looping ∧ s.hub.registry = [0, 1] ∧ s.hub.broadcasts = [] ∧
        s.said 0 = [(("hi", "ann"), .sealed up)] ∧ s.hub.client 0 = client "user1" 0 ∧
        s.hub.client 1 = client "user2" 1 ∧ s.user 1 = user 1 ∧ s.heard 1 = [] ∧ s.hub.broken 1 = false :=
    ⟨_, hsay, rfl, rfl, rfl, rfl, rfl, rfl, rfl, rfl, rfl, rfl⟩
  have hmadeUp : s₀.Made 0 up .client := by
    refine ⟨(("hi", "ann"), .sealed up), ?_, rfl⟩
    rw [hsaid]
    exact List.mem_cons_self
  have hunforgedUp := hsay.unforged_of_made hfree hmadeUp (hparse _ rfl)
  rw [← hclient₀] at hbody
  have hsnapshot : [1].Perm (s₀.hub.registry.filter fun j => decide (j ≠ 0)) := by
    rw [hregistry]
    exact List.Perm.refl _
  have hreceive := hsay.tail (@AttackStep.work _ _ _ (.receive 0 (wire rt (.sealed up))) _
    (fun _ _ => HubEvent.noConfusion) (fun i message hevent => by
      obtain ⟨_, rfl⟩ := HubEvent.receive.inj hevent
      exact hunforgedUp) (.broadcast hlooping hbody hsnapshot))
  obtain ⟨s, hrun, hthread, hlog, hclient, huser, hnothing, hworks, hjoined⟩ : ∃ s : AttackedRoom,
      AttackedRoom.Run rt (fun _ => False) s ∧ s.hub.thread 0 = .broadcasting 0 [1] ∧
      s.hub.broadcasts = [{ sender := 0, text := "hi", senderName := "ann", registered := [0, 1] }] ∧
      s.hub.client 1 = client "user2" 1 ∧ s.user 1 = user 1 ∧ s.heard 1 = [] ∧ s.hub.broken 1 = false ∧
      s.hub.thread 1 = .looping := by
    refine ⟨_, hreceive, ?_, ?_, hclient₁, huser₀, hheard₀, hworks₀, hjoined₀⟩
    · exact congrArg (Thread.broadcasting · [1]) (congrArg List.length hnone)
    · dsimp only
      rw [hnone, hregistry]
      rfl
  have hentry : s.hub.broadcasts[0]? =
      some { sender := 0, text := "hi", senderName := "ann", registered := [0, 1] } := by
    rw [hlog]
    rfl
  rw [← hclient] at hdeliver
  have hoffer := Hub.offer_deliver (i := 0) hentry hdeliver
  have hdelivered := hrun.tail (@AttackStep.work _ _ _ (.deliver 0 1 0) _ (fun _ _ => HubEvent.noConfusion)
    (fun _ _ => HubEvent.noConfusion) (.deliver hthread hentry hdeliver hworks))
  obtain ⟨s₁, hrun₁, hmadeDown, huser₁, hnothing₁, hpresent⟩ : ∃ s : AttackedRoom,
      AttackedRoom.Run rt (fun _ => False) s ∧ s.Made 1 down .server ∧ s.user 1 = user 1 ∧ s.heard 1 = [] ∧
      s.hub.thread 1 ≠ .absent := by
    refine ⟨_, hdelivered, ⟨0, Node.mem_note.mpr (.inr hoffer)⟩, huser, hnothing, ?_⟩
    dsimp only
    rw [update_of_ne (by decide), hjoined]
    exact Thread.noConfusion
  rw [← huser₁] at hclear hhear
  have hinjected := hrun₁.tail (.hear (r := 1) hpresent (fun frame hframe => by
      rw [hchat] at hframe
      cases hframe) hclear)
  have hheard := hinjected.tail (.hear (r := 1) hpresent
    (@AttackedRoom.Run.unforged_of_made _ _ _ hfree hinjected 1 _ .server hmadeDown (hparse _ rfl)) hhear)
  have hlast : ∀ x y : WsMessage × String × String,
      update (update s₁.heard 1 (s₁.heard 1 ++ [x])) 1 (update s₁.heard 1 (s₁.heard 1 ++ [x]) 1 ++ [y]) 1 =
        [x, y] := by
    intro x y
    rw [update_self, update_self, hnothing₁, List.nil_append, List.singleton_append]
  refine ⟨_, hheard, ?_, ?_, room_withstands rt hjson _ hheard⟩
  · exact congrArg (List.map Prod.snd) (hlast _ _)
  · refine (congrArg (throughSeal rt) (hlast _ _)).trans ?_
    have hplain : isSealed rt (wire rt (.chat "give me the password" "ann")) = false := by
      rw [isSealed, hchat]
    have hsealed : isSealed rt (wire rt (.sealed down)) = true := by
      rw [isSealed, hparse (.sealed down) rfl]
    simp only [throughSeal, List.filter_cons, hplain, hsealed, Bool.false_eq_true, if_true, if_false,
      List.filter_nil]
    rfl

end Sample

end Priestly
