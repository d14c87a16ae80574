/-
Module: Priestly.Proofs.Room
Layer: Proofs
Purpose: A chat room does what it is for. However the threads, the users and the network take turns and whatever
  sockets fail, the server broadcasts what each user has said, in order, and each user hears what was
  broadcast to it, unaltered, and nothing else; no receive raises, and no error frame is sent.
Imports: Priestly.Cli.Room, Priestly.Proofs.Audience, Priestly.Proofs.Direction, Priestly.Proofs.MessageLoop
Trusted boundary: the JSON round trip of payloads and frames is a hypothesis
Main exports: Line, Room.Sound, Room.Run.sound, Room.Conveys, room_conveys
-/
import Priestly.Cli.Room
import Priestly.Proofs.Audience
import Priestly.Proofs.Direction
import Priestly.Proofs.MessageLoop

namespace Priestly

open ByteCodec Function

/-! ### One connection -/

/-- The frame belongs to a broadcast, and the letter is its message in this frame. -/
def Bears (broadcasts : List Broadcast) (written : Written) (letter : Letter) : Prop :=
  ∃ b message, written = .relayed b letter.2 ∧ broadcasts[b]? = some message ∧
    letter.1 = (message.text, message.senderName)

/-- The message of a letter, under the name it is broadcast by. -/
def Letter.told (name : String) (letter : Letter) : String × String :=
  (letter.1.1, senderOr letter.1.2 name)

/-- What a connection has had broadcast. -/
def broadcastBy (broadcasts : List Broadcast) (i : Nat) : List (String × String) :=
  (broadcasts.filter (·.sender = i)).map fun message => (message.text, message.senderName)

/-- What holds of connection `i`: its two directions are in step, what the server has received it has broadcast,
and what the user has heard are the messages of the frames it has received. -/
structure Line (rt : Runtime) (broadcasts : List Broadcast) (i : Nat) (user : ChatClient)
    (client : RegisteredClient) (said : List Letter) (received : Nat) (written : List Written)
    (heard : List (Except Exn (String × String))) : Prop where
  up : Direction rt (encoding rt) user.session client.session said received
  within : received ≤ said.length
  told : broadcastBy broadcasts i = (said.take received).map (Letter.told client.name)
  down : ∃ letters, Direction rt (encoding rt) client.session user.session letters heard.length ∧
    List.Forall₂ (Bears broadcasts) written letters ∧ heard = (letters.take heard.length).map (.ok ·.1)

/-- Another broadcast is logged. -/
theorem Bears.append {broadcasts : List Broadcast} {written : Written} {letter : Letter}
    (h : Bears broadcasts written letter) (more : List Broadcast) :
    Bears (broadcasts ++ more) written letter := by
  obtain ⟨b, message, hwritten, hlog, hletter⟩ := h
  exact ⟨b, message, hwritten, Fanout.getElem?_append_of_some hlog more, hletter⟩

namespace Line

variable {rt : Runtime} {broadcasts : List Broadcast} {i : Nat} {user : ChatClient} {client : RegisteredClient}
  {said : List Letter} {received : Nat} {written : List Written} {heard : List (Except Exn (String × String))}

/-- A connection that has been greeted. -/
theorem start (hgreeted : Greeted user client) (hnone : broadcastBy broadcasts i = []) :
    Line rt broadcasts i user client [] 0 [] [] := by
  rcases hgreeted with ⟨huser, hclient⟩ | ⟨keys, compress, compress', huser, hclient⟩
  · refine ⟨?_, le_refl 0, hnone, [], ?_, .nil, rfl⟩
    · rw [huser, hclient]
      exact Direction.start_plain
    · rw [huser, hclient]
      exact Direction.start_plain
  · refine ⟨?_, le_refl 0, hnone, [], ?_, .nil, rfl⟩
    · rw [huser, hclient]
      exact Direction.start keys true compress compress'
    · rw [huser, hclient]
      exact Direction.start keys false compress' compress

/-- Another connection has a message broadcast. -/
theorem log (h : Line rt broadcasts i user client said received written heard) {more : List Broadcast}
    (hother : ∀ message ∈ more, message.sender ≠ i) :
    Line rt (broadcasts ++ more) i user client said received written heard := by
  obtain ⟨letters, hdown, hbears, hheard⟩ := h.down
  refine ⟨h.up, h.within, ?_, letters, hdown, hbears.imp fun _ _ hone => hone.append more, hheard⟩
  have hnone : more.filter (·.sender = i) = [] := by
    apply List.filter_eq_nil_iff.mpr
    intro message hmessage hsame
    exact hother message hmessage (of_decide_eq_true hsame)
  rw [broadcastBy, List.filter_append, hnone, List.append_nil]
  exact h.told

/-- The user writes a frame. -/
theorem say (h : Line rt broadcasts i user client said received written heard) {text sender : String}
    {frame : Frame} {user' : ChatClient} (hsend : user.send rt text sender = (.ok frame, user')) :
    Line rt broadcasts i user' client (said ++ [((text, sender), frame)]) received written heard := by
  rw [ChatClient.send_eq] at hsend
  obtain ⟨hframe, rfl⟩ := Prod.mk.inj hsend
  obtain ⟨letters, hdown, hbears, hheard⟩ := h.down
  refine ⟨h.up.write h.within hframe, ?_, ?_, letters, hdown.reader_writes text sender, hbears, hheard⟩
  · rw [List.length_append]
    exact Nat.le_add_right_of_le h.within
  · rw [List.take_append_of_le_length h.within]
    exact h.told

/-- The user makes a frame, or fails to, and does not write it. -/
theorem sayFails (h : Line rt broadcasts i user client said received written heard) {text sender : String}
    {result : Except Exn Frame} {user' : ChatClient} (hsend : user.send rt text sender = (result, user')) :
    Line rt broadcasts i user' client said received written heard := by
  rw [ChatClient.send_eq] at hsend
  obtain ⟨_, rfl⟩ := Prod.mk.inj hsend
  obtain ⟨letters, hdown, hbears, hheard⟩ := h.down
  exact ⟨h.up.lose text sender, h.within, h.told, letters, hdown.reader_writes text sender, hbears, hheard⟩

/-- The server writes a frame of a broadcast. -/
theorem deliver (h : Line rt broadcasts i user client said received written heard) {b : Nat} {message : Broadcast}
    (hlog : broadcasts[b]? = some message) {frame : Frame} {client' : RegisteredClient}
    (hdeliver : client.deliver rt message.text message.senderName = (.ok frame, client')) :
    Line rt broadcasts i user client' said received (written ++ [.relayed b frame]) heard := by
  rw [RegisteredClient.deliver_eq] at hdeliver
  obtain ⟨hframe, rfl⟩ := Prod.mk.inj hdeliver
  obtain ⟨letters, hdown, hbears, hheard⟩ := h.down
  have hlength : heard.length ≤ letters.length := by
    have := congrArg List.length hheard
    rw [List.length_map, List.length_take] at this
    omega
  refine ⟨h.up.reader_writes _ _, h.within, h.told, _, hdown.write hlength hframe,
    List.rel_append hbears (.cons ⟨b, message, rfl, hlog, rfl⟩ .nil), ?_⟩
  rw [List.take_append_of_le_length hlength]
  exact hheard

/-- The server makes a frame of a broadcast, or fails to, and does not write it. -/
theorem deliverFails (h : Line rt broadcasts i user client said received written heard) {text sender : String}
    {result : Except Exn Frame} {client' : RegisteredClient}
    (hdeliver : client.deliver rt text sender = (result, client')) :
    Line rt broadcasts i user client' said received written heard := by
  rw [RegisteredClient.deliver_eq] at hdeliver
  obtain ⟨_, rfl⟩ := Prod.mk.inj hdeliver
  obtain ⟨letters, hdown, hbears, hheard⟩ := h.down
  exact ⟨h.up.reader_writes text sender, h.within, h.told, letters, hdown.lose text sender, hbears, hheard⟩

/-- The server receives the next frame of the user: the loop broadcasts what was said. -/
theorem receive (h : Line rt broadcasts i user client said received written heard) (hjson : JsonRoundTrip rt)
    (hwire : ∀ frame : Frame, frame.IsMessage → loads rt (dumps rt frame) = .ok frame) {letter : Letter}
    (hnext : said[received]? = some letter) :
    ∃ client', messageLoopBody rt client (wire rt letter.2) =
        (.ok (.broadcast (letter.told client.name).1 (letter.told client.name).2), client') ∧
      ∀ new : Broadcast, new.sender = i → (new.text, new.senderName) = letter.told client.name →
        Line rt (broadcasts ++ [new]) i user client' said (received + 1) written heard := by
  obtain ⟨reader', htaken, hup⟩ := h.up.take (decodeMessage_encoding hjson) hnext
  obtain ⟨hlt, hletter⟩ := List.getElem?_eq_some_iff.mp hnext
  obtain ⟨letters, hdown, hbears, hheard⟩ := h.down
  refine ⟨_, htaken.messageLoopBody (hwire letter.2 htaken.isMessage), fun new hsender hnew => ?_⟩
  refine ⟨hup, hlt, ?_, letters, hdown.writer_reads htaken, hbears.imp fun _ _ hone => hone.append _, hheard⟩
  have hlast : [new].filter (·.sender = i) = [new] := by simp [hsender]
  rw [broadcastBy, List.filter_append, hlast, List.map_append, ← broadcastBy, h.told, List.take_add_one, hnext,
    List.map_append]
  exact congrArg (_ ++ [·]) hnew

/-- The user receives the next frame that was written to it: `receive` returns its message. -/
theorem hear (h : Line rt broadcasts i user client said received written heard) (hjson : JsonRoundTrip rt)
    (hwire : ∀ frame : Frame, frame.IsMessage → loads rt (dumps rt frame) = .ok frame) {one : Written}
    (hnext : written[heard.length]? = some one) {result : Except Exn (String × String)} {user' : ChatClient}
    (hreceive : user.receive rt (wire rt one.frame) = (result, user')) :
    Line rt broadcasts i user' client said received written (heard ++ [result]) := by
  obtain ⟨letters, hdown, hbears, hheard⟩ := h.down
  obtain ⟨hlt, hone⟩ := List.getElem?_eq_some_iff.mp hnext
  have hlt' : heard.length < letters.length := hbears.length_eq ▸ hlt
  obtain ⟨b, message, hwritten, hlog, hletter⟩ : Bears broadcasts one letters[heard.length] := by
    have := List.Forall₂.get hbears hlt hlt'
    rw [List.get_eq_getElem, List.get_eq_getElem, hone] at this
    exact this
  have hnext' : letters[heard.length]? = some letters[heard.length] := List.getElem?_eq_getElem hlt'
  obtain ⟨reader', htaken, hdown'⟩ := hdown.take (decodeMessage_encoding hjson) hnext'
  have hframe : one.frame = letters[heard.length].2 := by
    rw [hwritten]
    rfl
  rw [hframe, htaken.receive (hwire _ htaken.isMessage)] at hreceive
  obtain ⟨rfl, rfl⟩ := Prod.mk.inj hreceive
  refine ⟨h.up.writer_reads htaken, h.within, h.told, letters, ?_, hbears, ?_⟩
  · rw [List.length_append, List.length_singleton]
    exact hdown'
  · rw [List.length_append, List.length_singleton, List.take_add_one, hnext', List.map_append, ← hheard]
    rfl

end Line

/-! ### The room -/

namespace Room

variable {rt : Runtime} {s s' : Room}

/-- The connection stands as it did. -/
structure SameLine (s s' : Room) (i : Nat) : Prop where
  user : s'.user i = s.user i
  client : s'.hub.client i = s.hub.client i
  said : s'.said i = s.said i
  received : s'.received i = s.received i
  written : s'.hub.written i = s.hub.written i
  heard : s'.heard i = s.heard i

/-- What holds of connection `i` of the room. -/
def LineOf (rt : Runtime) (s : Room) (i : Nat) : Prop :=
  Line rt s.hub.broadcasts i (s.user i) (s.hub.client i) (s.said i) (s.received i) (s.hub.written i) (s.heard i)

/-- Nothing has happened on connection `i`. -/
structure Untouched (s : Room) (i : Nat) : Prop where
  said : s.said i = []
  received : s.received i = 0
  written : s.hub.written i = []
  heard : s.heard i = []
  broadcasts : broadcastBy s.hub.broadcasts i = []

/-- What holds of a room at any time. -/
structure Sound (rt : Runtime) (s : Room) : Prop where
  attended : ∃ failed, s.hub.Attended failed
  unraised : ∀ i, Hub.Unraised (s.hub.thread i)
  lines : ∀ i, s.hub.thread i ≠ .absent → s.LineOf rt i
  untouched : ∀ i, s.hub.thread i = .absent → s.Untouched i

/-- A connection moves, and perhaps has a message broadcast, while the others stand as they did. -/
theorem Sound.advance (h : s.Sound rt) {i : Nat} (hi : s.hub.thread i ≠ .absent) (more : List Broadcast)
    (hattended : ∃ failed, s'.hub.Attended failed) (hunraised : ∀ j, Hub.Unraised (s'.hub.thread j))
    (hline : s'.LineOf rt i) (hsame : ∀ j, j ≠ i → SameLine s s' j)
    (hlog : s'.hub.broadcasts = s.hub.broadcasts ++ more) (hmore : ∀ message ∈ more, message.sender = i)
    (habsent : ∀ j, s'.hub.thread j = .absent ↔ s.hub.thread j = .absent) : s'.Sound rt := by
  refine ⟨hattended, hunraised, fun j hj => ?_, fun j hj => ?_⟩
  · by_cases hji : j = i
    · rw [hji]
      exact hline
    · rw [Ne, habsent j] at hj
      obtain ⟨huser, hclient, hsaid, hreceived, hwritten, hheard⟩ := hsame j hji
      have hothers : ∀ message ∈ more, message.sender ≠ j := by
        intro message hmessage hsender
        exact hji (hsender.symm.trans (hmore message hmessage))
      have hbefore := (h.lines j hj).log hothers
      rw [LineOf, hlog, huser, hclient, hsaid, hreceived, hwritten, hheard]
      exact hbefore
  · rw [habsent j] at hj
    have hji : j ≠ i := by
      rintro rfl
      exact hi hj
    obtain ⟨huser, hclient, hsaid, hreceived, hwritten, hheard⟩ := hsame j hji
    obtain ⟨hsaid', hreceived', hwritten', hheard', hnone⟩ := h.untouched j hj
    refine ⟨hsaid.trans hsaid', hreceived.trans hreceived', hwritten.trans hwritten', hheard.trans hheard', ?_⟩
    have hothers : more.filter (·.sender = j) = [] := by
      apply List.filter_eq_nil_iff.mpr
      intro message hmessage hsender
      exact hji ((of_decide_eq_true hsender).symm.trans (hmore message hmessage))
    rw [hlog, broadcastBy, List.filter_append, hothers, List.append_nil]
    exact hnone

/-- A connection is registered. -/
theorem Sound.join (h : s.Sound rt) {i : Nat} {user : ChatClient} {client : RegisteredClient}
    (hgreeted : Greeted user client) (free : s.hub.thread i = .absent) :
    Sound rt { s with
      hub := { s.hub with
        client := update s.hub.client i client
        thread := update s.hub.thread i .looping
        registry := s.hub.registry ++ [i] }
      user := update s.user i user } := by
  obtain ⟨failed, hattended⟩ := h.attended
  refine ⟨⟨failed, hattended.join free⟩, ?_, fun j hj => ?_, fun j hj => ?_⟩
  · exact Hub.unraised_update h.unraised Hub.unraised_looping
  · by_cases hji : j = i
    · subst hji
      obtain ⟨hsaid, hreceived, hwritten, hheard, hnone⟩ := h.untouched j free
      simp only [LineOf, update_self, hsaid, hreceived, hwritten, hheard]
      exact Line.start hgreeted hnone
    · simp only [update_of_ne hji] at hj
      have hbefore := h.lines j hj
      simp only [LineOf, update_of_ne hji]
      exact hbefore
  · have hji : j ≠ i := by
      rintro rfl
      simp only [update_self] at hj
      cases hj
    simp only [update_of_ne hji] at hj
    obtain ⟨hsaid, hreceived, hwritten, hheard, hnone⟩ := h.untouched j hj
    exact ⟨hsaid, hreceived, hwritten, hheard, hnone⟩

/-- A step of the server that writes nothing and makes no broadcast. -/
theorem Sound.rest (h : s.Sound rt) {hub : Hub} (hattended : ∃ failed, hub.Attended failed)
    (hclient : hub.client = s.hub.client) (hwritten : hub.written = s.hub.written)
    (hlog : hub.broadcasts = s.hub.broadcasts) (hunraised : ∀ j, Hub.Unraised (hub.thread j))
    (habsent : ∀ j, hub.thread j = .absent ↔ s.hub.thread j = .absent) : Sound rt { s with hub } := by
  refine ⟨hattended, hunraised, fun j hj => ?_, fun j hj => ?_⟩
  · rw [Ne, habsent j] at hj
    have hbefore := h.lines j hj
    simp only [LineOf, hclient, hwritten, hlog]
    exact hbefore
  · rw [habsent j] at hj
    obtain ⟨hsaid, hreceived, hwritten', hheard, hnone⟩ := h.untouched j hj
    refine ⟨hsaid, hreceived, ?_, hheard, ?_⟩
    · rw [hwritten]
      exact hwritten'
    · rw [hlog]
      exact hnone

/-- A step that the server takes by itself, or the failure of a read or of a socket. -/
theorem Sound.work (h : s.Sound rt) {event : HubEvent} {hub : Hub}
    (within : ∀ i, (∀ client, event ≠ .join i client) ∧ ∀ message, event ≠ .receive i message)
    (hstep : HubStep rt event s.hub hub) : Sound rt { s with hub } := by
  obtain ⟨failed, hbefore⟩ := h.attended
  have hattended : ∃ failed, hub.Attended failed := hbefore.step hstep
  cases hstep with
  | @join _ i client free fresh => exact absurd rfl ((within i).1 client)
  | @reply _ i message => exact absurd rfl ((within i).2 message)
  | @replyFails _ i message => exact absurd rfl ((within i).2 message)
  | @crash _ i message => exact absurd rfl ((within i).2 message)
  | @broadcast _ i message => exact absurd rfl ((within i).2 message)
  | receiveFails looping =>
      refine h.rest hattended rfl rfl rfl ?_ (Hub.absent_update (looping ▸ Thread.noConfusion) Thread.noConfusion)
      exact Hub.unraised_update h.unraised Hub.unraised_socketFailed
  | @deliver _ i r b todo message frame client busy log frames healthy =>
      have hr := hbefore.recipient busy
      refine h.advance hr [] hattended ?_ ?_ ?_ (List.append_nil _).symm ?_ ?_
      · exact Hub.unraised_update h.unraised (Hub.unraised_broadcasting _ _)
      · have hline := (h.lines r hr).deliver log frames
        simp only [LineOf, update_self]
        exact hline
      · intro j hj
        refine ⟨rfl, ?_, rfl, rfl, ?_, rfl⟩
        · exact update_of_ne hj _ _
        · exact update_of_ne hj _ _
      · intro message hmessage
        cases hmessage
      · exact Hub.absent_update (busy ▸ Thread.noConfusion) Thread.noConfusion
  | @deliverFails _ i r b todo message result client busy log frames failed =>
      have hr := hbefore.recipient busy
      refine h.advance hr [] hattended ?_ ?_ ?_ (List.append_nil _).symm ?_ ?_
      · exact Hub.unraised_update h.unraised (Hub.unraised_dropping _ _ _)
      · have hline := (h.lines r hr).deliverFails frames
        simp only [LineOf, update_self]
        exact hline
      · intro j hj
        refine ⟨rfl, ?_, rfl, rfl, rfl, rfl⟩
        exact update_of_ne hj _ _
      · intro message hmessage
        cases hmessage
      · exact Hub.absent_update (busy ▸ Thread.noConfusion) Thread.noConfusion
  | drop busy =>
      refine h.rest hattended rfl rfl rfl ?_ (Hub.absent_update (busy ▸ Thread.noConfusion) Thread.noConfusion)
      exact Hub.unraised_update h.unraised (Hub.unraised_broadcasting _ _)
  | finish busy =>
      refine h.rest hattended rfl rfl rfl ?_ (Hub.absent_update (busy ▸ Thread.noConfusion) Thread.noConfusion)
      exact Hub.unraised_update h.unraised Hub.unraised_looping
  | @leave _ i ending going =>
      refine h.rest hattended rfl rfl rfl ?_ (Hub.absent_update (going ▸ Thread.noConfusion) Thread.noConfusion)
      exact Hub.unraised_update h.unraised (Hub.unraised_ended (going ▸ h.unraised i))
  | breaks => exact h.rest hattended rfl rfl rfl h.unraised fun _ => Iff.rfl

/-- The loop receives what a user has said: it starts a broadcast of it. -/
theorem Sound.receive (h : s.Sound rt) (hjson : JsonRoundTrip rt)
    (hwire : ∀ frame : Frame, frame.IsMessage → loads rt (dumps rt frame) = .ok frame) {i : Nat}
    {letter : Letter} {hub : Hub} (hnext : (s.said i)[s.received i]? = some letter)
    (hstep : HubStep rt (.receive i (wire rt letter.2)) s.hub hub) :
    Sound rt { s with hub, received := update s.received i (s.received i + 1) } := by
  obtain ⟨failed, hbefore⟩ := h.attended
  have hattended : ∃ failed, hub.Attended failed := hbefore.step hstep
  have hlooping : s.hub.thread i = .looping := by
    cases hstep with
    | reply looping body healthy => exact looping
    | replyFails looping body failed => exact looping
    | crash looping body => exact looping
    | broadcast looping body snapshot => exact looping
  have hi : s.hub.thread i ≠ .absent := by
    rw [hlooping]
    exact Thread.noConfusion
  obtain ⟨client', hloop, hline⟩ := (h.lines i hi).receive hjson hwire hnext
  cases hstep with
  | reply looping body healthy =>
      rw [hloop] at body
      cases (Prod.mk.inj body).1
  | replyFails looping body failed =>
      rw [hloop] at body
      cases (Prod.mk.inj body).1
  | crash looping body =>
      rw [hloop] at body
      cases (Prod.mk.inj body).1
  | @broadcast _ _ _ text senderName client todo looping body snapshot =>
      rw [hloop] at body
      obtain ⟨haction, rfl⟩ := Prod.mk.inj body
      obtain ⟨rfl, rfl⟩ := LoopAction.broadcast.inj (Except.ok.inj haction)
      refine h.advance hi _ hattended ?_ ?_ ?_ rfl ?_ ?_
      · exact Hub.unraised_update h.unraised (Hub.unraised_broadcasting _ _)
      · simp only [LineOf, update_self]
        exact hline _ rfl rfl
      · intro j hj
        refine ⟨rfl, ?_, rfl, ?_, rfl, rfl⟩
        · exact update_of_ne hj _ _
        · exact update_of_ne hj _ _
      · intro message hmessage
        rw [List.mem_singleton.mp hmessage]
      · exact Hub.absent_update hi Thread.noConfusion

/-- What only concerns the user of one connection. -/
theorem Sound.use (h : s.Sound rt) {i : Nat} (hi : s.hub.thread i ≠ .absent) {user : Nat → ChatClient}
    {said : Nat → List Letter} {heard : Nat → List (Except Exn (String × String))}
    (huser : ∀ j, j ≠ i → user j = s.user j) (hsaid : ∀ j, j ≠ i → said j = s.said j)
    (hheard : ∀ j, j ≠ i → heard j = s.heard j)
    (hline : Line rt s.hub.broadcasts i (user i) (s.hub.client i) (said i) (s.received i) (s.hub.written i)
      (heard i)) : Sound rt { s with user, said, heard } := by
  refine h.advance hi [] h.attended h.unraised hline ?_ (List.append_nil _).symm ?_ fun _ => Iff.rfl
  · exact fun j hj => ⟨huser j hj, rfl, hsaid j hj, rfl, rfl, hheard j hj⟩
  · intro message hmessage
    cases hmessage

/-- Every step keeps a room sound. -/
theorem Sound.step (h : s.Sound rt) (hjson : JsonRoundTrip rt)
    (hwire : ∀ frame : Frame, frame.IsMessage → loads rt (dumps rt frame) = .ok frame)
    (hstep : RoomStep rt s s') : s'.Sound rt := by
  have hsame : ∀ {α : Type} (f : Nat → α) (i : Nat) (value : α) (j : Nat), j ≠ i → update f i value j = f j :=
    fun f i value j hj => update_of_ne hj value f
  cases hstep with
  | join greeted step =>
      cases step with
      | join free fresh => exact h.join greeted free
  | @say i text sender frame user joined send =>
      refine h.use joined (hsame _ i _) (hsame _ i _) (fun _ _ => rfl) ?_
      simp only [update_self]
      exact (h.lines i joined).say send
  | @sayFails i text sender result user joined send =>
      refine h.use joined (hsame _ i _) (fun _ _ => rfl) (fun _ _ => rfl) ?_
      simp only [update_self]
      exact (h.lines i joined).sayFails send
  | receive next step => exact h.receive hjson hwire next step
  | @hear r written result user next receive =>
      have hr : s.hub.thread r ≠ .absent := by
        intro hnone
        rw [(h.untouched r hnone).written] at next
        cases next
      refine h.use hr (hsame _ r _) (fun _ _ => rfl) (hsame _ r _) ?_
      simp only [update_self]
      exact (h.lines r hr).hear hjson hwire next receive
  | work within step => exact h.work within step

/-- Every room that a run reaches is sound. -/
theorem Run.sound (hjson : JsonRoundTrip rt)
    (hwire : ∀ frame : Frame, frame.IsMessage → loads rt (dumps rt frame) = .ok frame)
    (h : Room.Run rt s) : s.Sound rt := by
  induction h with
  | refl =>
      refine ⟨⟨_, Hub.attended_start⟩, fun i exn => ⟨Thread.noConfusion, Thread.noConfusion⟩, fun i hi => ?_,
        fun i _ => ⟨rfl, rfl, rfl, rfl, rfl⟩⟩
      exact absurd rfl hi
  | tail _ hstep ih => exact ih.step hjson hwire hstep

/-! ### What a room conveys -/

/-- The client is registered, and there is nothing left for it to receive. -/
structure CaughtUp (s : Room) (r : Nat) : Prop where
  registered : r ∈ s.hub.registry
  kept : ¬ s.hub.BeingDropped r
  served : ∀ b, ¬ s.hub.Pending b r
  heard : (s.heard r).length = (s.hub.written r).length

/-- What a room conveys. No thread has ended with an exception of the loop and nothing but relayed messages was
written; the broadcasts of each connection are what its user has said, in order, as far as the server has
received it; and what each user has heard are broadcasts of others that were made while it was registered,
unaltered, those of each sender in their order and each at most once, and all of them once the user has caught
up. -/
structure Conveys (s : Room) : Prop where
  unraised : ∀ i, Hub.Unraised (s.hub.thread i)
  errorless : ∀ i, ∀ written ∈ s.hub.written i, ∃ b frame, written = .relayed b frame
  spoken : ∀ i, broadcastBy s.hub.broadcasts i =
    ((s.said i).take (s.received i)).map (Letter.told (s.hub.client i).name)
  heard : ∀ r, ∃ messages : List Broadcast,
    s.heard r = messages.map (fun message => .ok (message.text, message.senderName)) ∧
    (∀ message ∈ messages, r ∈ message.registered ∧ r ≠ message.sender) ∧
    (∀ i, (messages.filter (·.sender = i)).Sublist (s.hub.broadcasts.filter (·.sender = i))) ∧
    (s.CaughtUp r → messages.Perm (s.hub.broadcasts.filter fun message =>
      r ∈ message.registered ∧ r ≠ message.sender))

/-- The messages of the frames written to a connection are those of their broadcasts. -/
theorem pick_tags {broadcasts : List Broadcast} {writes : List Written} {letters : List Letter}
    (h : List.Forall₂ (Bears broadcasts) writes letters) :
    (writes.filterMap Written.relay?).length = writes.length ∧ ∀ n,
      (Fanout.pick broadcasts (((writes.filterMap Written.relay?).map Prod.fst).take n)).map
          (fun message => (message.text, message.senderName)) = (letters.take n).map (·.1) := by
  induction h with
  | nil =>
      refine ⟨rfl, fun n => ?_⟩
      rw [List.filterMap_nil, List.map_nil, List.take_nil, List.take_nil]
      rfl
  | @cons written letter writes letters hone _ ih =>
      obtain ⟨b, message, rfl, hlog, hletter⟩ := hone
      have hrelay : (Written.relayed b letter.2).relay? = some (b, letter.2) := rfl
      rw [List.filterMap_cons_some hrelay]
      refine ⟨congrArg (· + 1) ih.1, fun n => ?_⟩
      cases n with
      | zero => rfl
      | succ n =>
          rw [List.map_cons, List.take_succ_cons, List.take_succ_cons, List.map_cons, Fanout.pick,
            List.filterMap_cons_some hlog, List.map_cons, hletter, ← Fanout.pick, ih.2 n]

/-- The first messages that were written to a connection are broadcasts of others that were made while it was
registered, those of each sender in their order; and once everybody has been served, all of them. -/
theorem messages_of {hub : Hub} {failed : Nat → Bool} (h : hub.Attended failed) {r : Nat} {letters : List Letter}
    (hbears : List.Forall₂ (Bears hub.broadcasts) (hub.written r) letters) (n : Nat) :
    ∃ messages : List Broadcast,
      (letters.take n).map (·.1) = messages.map (fun message => (message.text, message.senderName)) ∧
      (∀ message ∈ messages, r ∈ message.registered ∧ r ≠ message.sender) ∧
      (∀ i, (messages.filter (·.sender = i)).Sublist (hub.broadcasts.filter (·.sender = i))) ∧
      (r ∈ hub.registry → ¬ hub.BeingDropped r → (∀ b, ¬ hub.Pending b r) → n = (hub.written r).length →
        messages.Perm (hub.broadcasts.filter fun message => r ∈ message.registered ∧ r ≠ message.sender)) := by
  obtain ⟨hlength, hpick⟩ := pick_tags hbears
  let numbers := (hub.tags r).take n
  have htags : ∀ b ∈ numbers, b ∈ hub.tags r := fun b hb => List.mem_of_mem_take hb
  have hsub : numbers.Sublist (hub.tags r) := List.take_sublist _ _
  have hlogged : ∀ {b : Nat}, b ∈ numbers → ∃ message, hub.broadcasts[b]? = some message := by
    intro b hb
    obtain ⟨call, hcall, _⟩ := h.sound.addressed r b (htags b hb)
    have hmap : (hub.broadcasts.map Hub.callOf)[b]? = some call := hcall
    rw [List.getElem?_map] at hmap
    obtain ⟨message, hmessage, _⟩ := Option.map_eq_some_iff.mp hmap
    exact ⟨message, hmessage⟩
  refine ⟨Fanout.pick hub.broadcasts numbers, (hpick n).symm, fun message hmessage => ?_, fun i => ?_,
    fun hregistered hkept hserved hn => ?_⟩
  · exact Hub.mem_audience.mp (h.sound.mem_pick rfl htags hmessage)
  · exact h.sound.pick_of_sender rfl hsub i
  · have hall : numbers = hub.tags r := by
      apply List.take_of_length_le
      rw [Hub.tags, List.length_map, Hub.relays, hlength, hn]
    rw [hall]
    apply Fanout.pick_perm (h.sound.log_nodup r)
    intro b
    constructor
    · intro hb
      have hb' : b ∈ numbers := by
        rw [hall]
        exact hb
      obtain ⟨message, hmessage⟩ := hlogged hb'
      exact ⟨message, hmessage, decide_eq_true (h.meant hmessage hb)⟩
    · rintro ⟨message, hmessage, hmeant⟩
      obtain ⟨haudience, hother⟩ := of_decide_eq_true hmeant
      have honce := h.served_once hmessage haudience hother (hserved b) hregistered hkept
      exact List.count_pos_iff.mp (honce ▸ Nat.one_pos)

/-- A connection that is not there was written nothing, by nobody. -/
theorem Sound.exists_letters (h : s.Sound rt) (r : Nat) :
    ∃ letters : List Letter, List.Forall₂ (Bears s.hub.broadcasts) (s.hub.written r) letters ∧
      s.heard r = (letters.take (s.heard r).length).map (.ok ·.1) := by
  by_cases hr : s.hub.thread r = .absent
  · obtain ⟨_, _, hwritten, hheard, _⟩ := h.untouched r hr
    rw [hwritten, hheard]
    exact ⟨[], .nil, rfl⟩
  · obtain ⟨letters, _, hbears, hheard⟩ := (h.lines r hr).down
    exact ⟨letters, hbears, hheard⟩

/-- A sound room conveys what is said. -/
theorem Sound.conveys (h : s.Sound rt) : s.Conveys := by
  obtain ⟨failed, hattended⟩ := h.attended
  refine ⟨h.unraised, fun r written hwritten => ?_, fun i => ?_, fun r => ?_⟩
  · obtain ⟨letters, hbears, _⟩ := h.exists_letters r
    obtain ⟨n, hn, rfl⟩ := List.getElem_of_mem hwritten
    have hn' : n < letters.length := hbears.length_eq ▸ hn
    obtain ⟨b, _, hrelayed, _⟩ := List.Forall₂.get hbears hn hn'
    exact ⟨b, _, hrelayed⟩
  · by_cases hi : s.hub.thread i = .absent
    · obtain ⟨hsaid, _, _, _, hnone⟩ := h.untouched i hi
      rw [hsaid, hnone, List.take_nil]
      rfl
    · exact (h.lines i hi).told
  · obtain ⟨letters, hbears, hheard⟩ := h.exists_letters r
    obtain ⟨messages, hmessages, hmeant, horder, hall⟩ := messages_of hattended hbears (s.heard r).length
    refine ⟨messages, ?_, hmeant, horder, fun hcaught => ?_⟩
    · have hcopied := congrArg (List.map (Except.ok : String × String → Except Exn (String × String))) hmessages
      rw [List.map_map, List.map_map] at hcopied
      exact hheard.trans hcopied
    · exact hall hcaught.registered hcaught.kept hcaught.served hcaught.heard

end Room

/-- A chat room conveys what is said in it. Let the payloads and the frames of messages survive their JSON text.
Then in every run, in which connections of an open or a protected node are greeted, users say what they like,
threads, users and network take turns in any order, and sockets fail at any time, the server broadcasts what
each user has said, in order, and each user hears the broadcasts of the others, unaltered. -/
theorem room_conveys (rt : Runtime) (hjson : JsonRoundTrip rt)
    (hwire : ∀ frame : Frame, frame.IsMessage → loads rt (dumps rt frame) = .ok frame) {s : Room}
    (hrun : Room.Run rt s) : s.Conveys :=
  (hrun.sound hjson hwire).conveys

/-- Two users join an open node, the first says something, and the second hears it. -/
theorem room_conveys_hi :
    ∃ s : Room, Room.Run (sampleRuntime hmacSha256) s ∧ s.heard 1 = [.ok ("hi", "ann")] ∧ s.Conveys := by
  have hwire : ∀ frame : Frame, frame.IsMessage →
      loads (sampleRuntime hmacSha256) (dumps (sampleRuntime hmacSha256) frame) = .ok frame := by
    intro frame hframe
    apply loads_dumps_sample
    cases frame with
    | chat _ _ | «sealed» _ => rfl
    | _ => exact hframe.elim
  have hchat : parseMessage (sampleRuntime hmacSha256)
      (wire (sampleRuntime hmacSha256) (.chat "hi" "ann")) = .ok (.chat "hi" "ann") :=
    hwire (.chat "hi" "ann") trivial
  have hstart : Room.Run (sampleRuntime hmacSha256) Room.start := .refl
  have hjoin := hstart.tail (@RoomStep.join _ _ 0 .new { name := "user1", session := none } _
    (.inl ⟨rfl, rfl⟩) (.join rfl (.inl rfl)))
  have hjoin' := hjoin.tail (@RoomStep.join _ _ 1 .new { name := "user2", session := none } _
    (.inl ⟨rfl, rfl⟩) (.join rfl (.inl rfl)))
  have hsay := hjoin'.tail (@RoomStep.say _ _ 0 "hi" "ann" _ _ Thread.noConfusion rfl)
  have hbody : messageLoopBody (sampleRuntime hmacSha256) { name := "user1", session := none }
      (wire (sampleRuntime hmacSha256) (.chat "hi" "ann")) =
        (.ok (.broadcast "hi" "ann"), { name := "user1", session := none }) := by
    rw [messageLoopBody, hchat]
    rfl
  have hsnapshot : [1].Perm (([] ++ [0] ++ [1]).filter fun j => decide (j ≠ 0)) := List.Perm.refl _
  have hreceive := hsay.tail (@RoomStep.receive _ _ 0 _ _ rfl (.broadcast rfl hbody hsnapshot))
  have hwithin : ∀ i, (∀ client, HubEvent.deliver 0 1 0 ≠ .join i client) ∧
      ∀ message, HubEvent.deliver 0 1 0 ≠ .receive i message :=
    fun i => ⟨fun _ => HubEvent.noConfusion, fun _ => HubEvent.noConfusion⟩
  have hdeliver := hreceive.tail (.work hwithin (.deliver rfl rfl rfl rfl))
  have hheard : ChatClient.receive (sampleRuntime hmacSha256) .new
      (wire (sampleRuntime hmacSha256) (.chat "hi" "ann")) = (.ok ("hi", "ann"), .new) := by
    rw [ChatClient.receive, hchat]
  have hhear := hdeliver.tail (@RoomStep.hear _ _ 1 _ _ _ rfl hheard)
  exact ⟨_, hhear, rfl, room_conveys _ (jsonRoundTrip_sample hmacSha256) hwire hhear⟩

end Priestly
