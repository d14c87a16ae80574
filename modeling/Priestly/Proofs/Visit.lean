/-
Module: Priestly.Proofs.Visit
Layer: Proofs
Purpose: A browser takes part in the chat. On an open node and, once the page has its keys, on a protected one,
  the timeline shows what was broadcast to the browser while it was registered, unaltered and in order, and what
  its user sends is broadcast in order, whatever the other connections do.
Imports: Priestly.Proofs.PageLoop, Priestly.Proofs.Room
Trusted boundary: HMAC keys are not empty; the JSON functions of the browser and of the server read what the
  other has written; the numbers of frames stay below 2^53
Main exports: Hub.Toward, Ui.Visit.Sound, Ui.Visit.Run.sound, Ui.Visit.Conveys, browser_takes_part
-/
import Priestly.Proofs.PageLoop
import Priestly.Proofs.Room

namespace Priestly

open ByteCodec Function Js

/-! ### The server, seen from one connection -/

namespace Hub

/-- What a step of the server does to a connection whose loop receives nothing: nothing, or a frame of a
broadcast is written to it, or is made, or cannot be made, and is not written. -/
inductive Toward (rt : Runtime) (i : Nat) (s s' : Hub) : Prop where
  | silent (client : s'.client i = s.client i) (written : s'.written i = s.written i)
  | delivers {b : Nat} {message : Broadcast} {frame : Frame} {client : RegisteredClient}
      (log : s.broadcasts[b]? = some message)
      (frames : (s.client i).deliver rt message.text message.senderName = (.ok frame, client))
      (client : s'.client i = client) (written : s'.written i = s.written i ++ [.relayed b frame])
  | fails {text sender : String} {result : Except Exn Frame} {client : RegisteredClient}
      (frames : (s.client i).deliver rt text sender = (result, client)) (client : s'.client i = client)
      (written : s'.written i = s.written i)

/-- Seen from a connection, the threads of others do not count, and broadcasts are of others. -/
structure Aside (rt : Runtime) (i : Nat) (s s' : Hub) : Prop where
  toward : Toward rt i s s'
  log : ∃ more, s'.broadcasts = s.broadcasts ++ more ∧ ∀ message ∈ more, message.sender ≠ i
  joined : s'.thread i ≠ .absent
  unraised : Unraised (s'.thread i)

variable {rt : Runtime} {s s' : Hub} {event : HubEvent}

/-- A step of the server in which the connection neither joins nor has its loop receive anything. -/
theorem aside_step {i : Nat} (hstep : HubStep rt event s s') (hother : ∀ message, event ≠ .receive i message)
    (hjoin : ∀ client, event ≠ .join i client) (hjoined : s.thread i ≠ .absent)
    (hunraised : Unraised (s.thread i)) : Aside rt i s s' := by
  have hnone : ∃ more, s.broadcasts = s.broadcasts ++ more ∧ ∀ message ∈ more, message.sender ≠ i :=
    ⟨[], (List.append_nil _).symm, fun message hmessage => by cases hmessage⟩
  -- a thread that moves is another one, or stays joined without an exception
  have hthread : ∀ {j : Nat} {thread : Thread}, thread ≠ .absent → (j = i → Unraised thread) →
      update s.thread j thread i ≠ .absent ∧ Unraised (update s.thread j thread i) := by
    intro j thread hthere hraised
    by_cases hji : j = i
    · rw [hji, update_self]
      exact ⟨hthere, hraised hji⟩
    · rw [update_of_ne (Ne.symm hji)]
      exact ⟨hjoined, hunraised⟩
  have hstill : ∀ {j : Nat} {client : RegisteredClient}, i ≠ j → update s.client j client i = s.client i :=
    fun hij => update_of_ne hij _ _
  have hreceives : ∀ {j : Nat} {message : WsMessage}, event = .receive j message → i ≠ j := by
    rintro j message hevent rfl
    exact hother message hevent
  cases hstep with
  | @join _ j client free fresh =>
      have hij : i ≠ j := by
        rintro rfl
        exact hjoin client rfl
      obtain ⟨hthere, hraised⟩ := @hthread j .looping Thread.noConfusion fun _ => unraised_looping
      exact ⟨.silent (hstill hij) rfl, hnone, hthere, hraised⟩
  | @reply _ j message frame client looping body healthy =>
      have hij : i ≠ j := hreceives rfl
      exact ⟨.silent (hstill hij) (update_of_ne hij _ _), hnone, hjoined, hunraised⟩
  | @replyFails _ j message frame client looping body broken =>
      have hij : i ≠ j := hreceives rfl
      obtain ⟨hthere, hraised⟩ := @hthread j (.leaving .socketFailed) Thread.noConfusion
        fun _ => unraised_socketFailed
      exact ⟨.silent (hstill hij) rfl, hnone, hthere, hraised⟩
  | @crash _ j message exn client looping body =>
      have hij : i ≠ j := hreceives rfl
      obtain ⟨hthere, hraised⟩ := @hthread j (.leaving (.raised exn)) Thread.noConfusion
        fun hji => absurd hji.symm hij
      exact ⟨.silent (hstill hij) rfl, hnone, hthere, hraised⟩
  | @broadcast _ j message text senderName client todo looping body snapshot =>
      have hij : i ≠ j := hreceives rfl
      obtain ⟨hthere, hraised⟩ := @hthread j (.broadcasting s.broadcasts.length todo) Thread.noConfusion
        fun _ => unraised_broadcasting _ todo
      refine ⟨.silent (hstill hij) rfl, ⟨_, rfl, fun message hmessage => ?_⟩, hthere, hraised⟩
      rw [List.mem_singleton.mp hmessage]
      exact hij.symm
  | @receiveFails _ j looping =>
      obtain ⟨hthere, hraised⟩ := @hthread j (.leaving .socketFailed) Thread.noConfusion
        fun _ => unraised_socketFailed
      exact ⟨.silent rfl rfl, hnone, hthere, hraised⟩
  | @deliver _ j r b todo message frame client busy log frames healthy =>
      obtain ⟨hthere, hraised⟩ := @hthread j (.broadcasting b todo) Thread.noConfusion
        fun _ => unraised_broadcasting b todo
      by_cases hir : i = r
      · subst hir
        exact ⟨.delivers log frames (update_self _ _ _) (update_self _ _ _), hnone, hthere, hraised⟩
      · exact ⟨.silent (hstill hir) (update_of_ne hir _ _), hnone, hthere, hraised⟩
  | @deliverFails _ j r b todo message result client busy log frames failed =>
      obtain ⟨hthere, hraised⟩ := @hthread j (.dropping r b todo) Thread.noConfusion
        fun _ => unraised_dropping r b todo
      by_cases hir : i = r
      · subst hir
        exact ⟨.fails frames (update_self _ _ _) rfl, hnone, hthere, hraised⟩
      · exact ⟨.silent (hstill hir) rfl, hnone, hthere, hraised⟩
  | @drop _ j r b todo busy =>
      obtain ⟨hthere, hraised⟩ := @hthread j (.broadcasting b todo) Thread.noConfusion
        fun _ => unraised_broadcasting b todo
      exact ⟨.silent rfl rfl, hnone, hthere, hraised⟩
  | @finish _ j b busy =>
      obtain ⟨hthere, hraised⟩ := @hthread j .looping Thread.noConfusion fun _ => unraised_looping
      exact ⟨.silent rfl rfl, hnone, hthere, hraised⟩
  | @leave _ j ending going =>
      have hended : j = i → Unraised (.ended ending) := by
        rintro rfl
        exact unraised_ended (going ▸ hunraised)
      obtain ⟨hthere, hraised⟩ := @hthread j (.ended ending) Thread.noConfusion hended
      exact ⟨.silent rfl rfl, hnone, hthere, hraised⟩
  | breaks => exact ⟨.silent rfl rfl, hnone, hjoined, hunraised⟩

/-- Nothing has been written to a connection that has not joined, and it has had nothing broadcast. -/
def Untouched (s : Hub) (i : Nat) : Prop := s.written i = [] ∧ broadcastBy s.broadcasts i = []

/-- A step leaves a connection alone that has not joined. -/
theorem untouched_step {failed : Nat → Bool} (hattended : s.Attended failed)
    (h : ∀ i, s.thread i = .absent → s.Untouched i) (hstep : HubStep rt event s s') {i : Nat}
    (hi : s'.thread i = .absent) : s'.Untouched i := by
  -- a thread that has moved is not the one of the connection
  have hstill : ∀ {j : Nat} {thread : Thread}, thread ≠ .absent → update s.thread j thread i = .absent →
      i ≠ j ∧ s.thread i = .absent := by
    intro j thread hthere hnone
    by_cases hij : i = j
    · rw [hij, update_self] at hnone
      exact absurd hnone hthere
    · rw [update_of_ne hij] at hnone
      exact ⟨hij, hnone⟩
  cases hstep with
  | join free fresh => exact h i (hstill Thread.noConfusion hi).2
  | @reply _ j message frame client looping body healthy =>
      obtain ⟨hwritten, hnone⟩ := h i hi
      have hij : i ≠ j := by
        rintro rfl
        exact absurd (looping.symm.trans hi) Thread.noConfusion
      exact ⟨(update_of_ne hij _ _).trans hwritten, hnone⟩
  | replyFails looping body broken => exact h i (hstill Thread.noConfusion hi).2
  | crash looping body => exact h i (hstill Thread.noConfusion hi).2
  | @broadcast _ j message text senderName client todo looping body snapshot =>
      obtain ⟨hij, habsent⟩ := hstill Thread.noConfusion hi
      obtain ⟨hwritten, hnone⟩ := h i habsent
      refine ⟨hwritten, ?_⟩
      have hlast : [({ sender := j, text, senderName, registered := s.registry } : Broadcast)].filter
          (·.sender = i) = [] := by simp [hij.symm]
      rw [broadcastBy, List.filter_append, hlast, List.append_nil]
      exact hnone
  | receiveFails looping => exact h i (hstill Thread.noConfusion hi).2
  | @deliver _ j r b todo message frame client busy log frames healthy =>
      obtain ⟨_, habsent⟩ := hstill Thread.noConfusion hi
      obtain ⟨hwritten, hnone⟩ := h i habsent
      have hir : i ≠ r := by
        rintro rfl
        exact hattended.recipient busy habsent
      exact ⟨(update_of_ne hir _ _).trans hwritten, hnone⟩
  | deliverFails busy log frames failed => exact h i (hstill Thread.noConfusion hi).2
  | drop busy => exact h i (hstill Thread.noConfusion hi).2
  | finish busy => exact h i (hstill Thread.noConfusion hi).2
  | leave going => exact h i (hstill Thread.noConfusion hi).2
  | breaks => exact h i hi

/-- In no run anything happens on a connection before it joins. -/
theorem Run.untouched {allowed : Hub → HubEvent → Prop} (h : Run rt allowed s) :
    ∀ i, s.thread i = .absent → s.Untouched i := by
  induction h with
  | start => exact fun i _ => ⟨rfl, rfl⟩
  | step hrun _ hstep ih =>
      obtain ⟨failed, hattended⟩ := hrun.attended
      exact fun i hi => untouched_step hattended ih hstep hi

end Hub

namespace Ui

open Interaction

/-! ### The two sessions -/

/-- The session that seals and opens as the page does, if it has keys. -/
def Page.session? (keys : Option SessionKeys) (page : Page) : Option SessionState :=
  keys.map fun k => page.session k

/-- The session of the server's end, which does not compress. -/
def Faces (keys : Option SessionKeys) (session : Option SessionState) : Prop :=
  ∃ m n, session = keys.map fun k => { SessionState.new k false false with txSeq := m, rxSeq := n }

section Sessions

variable {rt : Runtime} {keys : Option SessionKeys} {session session' : Option SessionState}

/-- Making a frame moves a counter. -/
theorem Faces.outgoing (h : Faces keys session) (text sender : String) :
    Faces keys (outgoing rt session text sender).2 := by
  obtain ⟨m, n, rfl⟩ := h
  cases keys with
  | none => exact ⟨m, n, rfl⟩
  | some k =>
      refine ⟨m + 1, n, ?_⟩
      rw [Option.map_some, outgoing_snd]
      rfl

/-- Taking a frame moves the other counter. -/
theorem Faces.taken (h : Faces keys session) {frame : Frame} {handed : String × String}
    (htaken : Taken rt session frame handed session') : Faces keys session' := by
  obtain ⟨m, n, rfl⟩ := h
  cases keys with
  | none =>
      cases htaken with
      | plain => exact ⟨m, n, rfl⟩
  | some k =>
      cases htaken with
      | secured opens decodes =>
          obtain ⟨n', rfl⟩ := SessionState.open_moves opens
          exact ⟨m, n', rfl⟩

/-- How the timeline shows a message. -/
def shown (message : String × String) : Option Json × Option Json :=
  (some (.string message.1), some (.string message.2))

/-- `receiveLoop` shows the next message of the server, unaltered, and remembers its number as a session
would. -/
theorem hear_next {browser : Browser} (hjson : JsonInterop rt browser.json) (hhmac : browser.hmac = rt.hmac)
    (hkey : ∀ k, keys = some k → k.serverMac ≠ []) {page : Page} {letter : Letter}
    (h : Direction.Next rt (encoding rt) session (page.session? keys) letter session')
    (hfaces : Faces keys session) (hsafe : SafeNumber letter.2) :
    ∃ n, hear browser (keys.map SessionKeys.page) page.rxSeq letter.2 = (some (shown letter.1), n) ∧
      session' = keys.map fun k => { page.session k with rxSeq := n } := by
  cases keys with
  | none =>
      cases h with
      | plain => exact ⟨page.rxSeq, rfl, rfl⟩
  | some k =>
      obtain ⟨m, n, rfl⟩ := hfaces
      cases h with
      | @secured _ _ base message frame continues seals facing range new =>
          refine ⟨frame.seq, ?_, rfl⟩
          have hcompress : base.compress = false := (congrArg SessionState.compress continues).symm
          have hdir : base.txDir = "server" := (congrArg SessionState.txDir continues).symm
          have hmac : base.txMac = k.page.serverMac := (congrArg SessionState.txMac continues).symm
          have hepoch : frame.epoch = 0 := by
            obtain ⟨_, _, _, _, hparts⟩ := seals.parts
            rw [hparts]
            exact (congrArg SessionState.epoch continues).symm
          have hnumber : frame.seq < 2 ^ 53 := hsafe
          have hsame : Ui.received frame = frame := received_eq hepoch (by omega)
          obtain ⟨⟨rest, hbrace⟩, hparse⟩ := hjson message.1 message.2
          have htext : textDecode (encoding rt message) = rt.jsonDumps (messageObject message.1 message.2) :=
            textDecode_utf8Encode hbrace (by decide)
          have hpageKey : k.page.serverMac ≠ [] := hkey k rfl
          have hnew : page.rxSeq < frame.seq := new
          have hopen : openWith browser (some k.page) page.rxSeq frame =
              .ok (messageObject message.1 message.2) := by
            rw [openWith, hhmac, open_seals browser.json rt.hmac hpageKey hcompress hdir hmac seals hnew, htext,
              hparse]
          rw [Option.map_some, hear, hsame, hopen]
          rfl

end Sessions

/-! ### The visit -/

namespace Visit

/-- What holds of a visit that began as `start`: the page has done with the first `heard` of the letters that
were written to it and shows them, `unread` are those that have arrived besides; and the server has received and
broadcast the first messages that the page has written. -/
structure Line (rt : Runtime) (browser : Browser) (keys : Option SessionKeys) (i c : Nat) (start v : Visit)
    (unread : List Frame) (wrote : List (String × Frame)) (pending : List (String × SealedFrame))
    (relayed : List Letter) (heard : Nat) : Prop where
  talk : Talk browser keys c start.page v.page unread wrote pending
  faces : Faces keys (v.hub.client i).session
  up : Direction rt (pageEncoding browser.json) (v.page.session? keys) (v.hub.client i).session
    (letters wrote pending) (v.received - start.received)
  within : start.received ≤ v.received ∧ v.received - start.received ≤ wrote.length
  told : broadcastBy v.hub.broadcasts i =
    ((letters wrote pending).take (v.received - start.received)).map (·.1)
  down : Direction rt (encoding rt) (v.hub.client i).session (v.page.session? keys) relayed heard
  bears : List.Forall₂ (Bears v.hub.broadcasts) (v.hub.written i) relayed
  arrived : v.arrived = heard + unread.length
  bounded : heard + unread.length ≤ relayed.length
  pipe : unread = ((relayed.drop heard).take unread.length).map (·.2)
  safe : ∀ frame ∈ unread, SafeNumber frame
  timeline : v.page.incoming = start.page.incoming ++ (relayed.take heard).map (shown ·.1)

/-- What holds of a visit at any time. -/
structure Sound (rt : Runtime) (browser : Browser) (keys : Option SessionKeys) (i c : Nat) (start v : Visit) :
    Prop where
  attended : ∃ failed, v.hub.Attended failed
  joined : v.hub.thread i ≠ .absent
  unraised : Hub.Unraised (v.hub.thread i)
  line : ∃ unread wrote pending relayed heard,
    Line rt browser keys i c start v unread wrote pending relayed heard

section Steps

variable {rt : Runtime} {browser : Browser} {grp : ModpGroup} {wire : Frame → WsMessage}
  {keys : Option SessionKeys} {i c : Nat} {start v : Visit} {unread : List Frame}
  {wrote : List (String × Frame)} {pending : List (String × SealedFrame)} {relayed : List Letter} {heard : Nat}

/-- The session of a page whose counters stand as they did. -/
theorem session?_eq {page page' : Page} (hrxSeq : page'.rxSeq = page.rxSeq)
    (htxSeq : page'.txSeq = page.txSeq) : page'.session? keys = page.session? keys := by
  cases keys with
  | none => rfl
  | some k =>
      rw [Page.session?, Page.session?, Option.map_some, Option.map_some, Page.session, Page.session, hrxSeq,
        htxSeq]

/-- `receiveLoop` has done with the oldest frame. -/
theorem Line.hear (h : Line rt browser keys i c start v unread wrote pending relayed heard)
    (hjson : JsonInterop rt browser.json) (hhmac : browser.hmac = rt.hmac)
    (hkey : ∀ k, keys = some k → k.clientMac ≠ [] ∧ k.serverMac ≠ []) {frame : Frame} {rest : List Frame}
    (holdest : unread = frame :: rest) {page : Page} {wrote' : List (String × Frame)}
    {pending' : List (String × SealedFrame)} (htalk : Talk browser keys c start.page page rest wrote' pending')
    (hwrote : wrote <+: wrote') (hsaid : letters wrote' pending' = letters wrote pending)
    (hincoming : page.incoming =
      v.page.incoming ++ (hear browser v.page.keys v.page.rxSeq frame).1.toList)
    (hrxSeq : page.rxSeq = (Ui.hear browser v.page.keys v.page.rxSeq frame).2)
    (htxSeq : page.txSeq = v.page.txSeq) :
    Line rt browser keys i c start { v with page } rest wrote' pending' relayed (heard + 1) := by
  subst holdest
  have hpipe := h.pipe
  rw [List.length_cons] at hpipe
  obtain ⟨letter, later, hdrop⟩ : ∃ letter later, relayed.drop heard = letter :: later := by
    cases hdrop : relayed.drop heard with
    | nil =>
        rw [hdrop] at hpipe
        cases hpipe
    | cons letter later => exact ⟨letter, later, rfl⟩
  rw [hdrop, List.take_succ_cons, List.map_cons] at hpipe
  obtain ⟨rfl, hrest⟩ := List.cons.inj hpipe
  have hnext : relayed[heard]? = some letter := by
    rw [← List.head?_drop, hdrop]
    rfl
  have hdrop' : relayed.drop (heard + 1) = later := by
    rw [← List.drop_drop, hdrop]
    rfl
  obtain ⟨reader, hletter, hdown⟩ := h.down.next hnext
  obtain ⟨n, hhear, rfl⟩ := hear_next hjson hhmac (fun k hk => (hkey k hk).2) hletter h.faces
    (h.safe _ List.mem_cons_self)
  rw [h.talk.holds, hhear] at hincoming hrxSeq
  have hsession : page.session? keys = keys.map fun k => { v.page.session k with rxSeq := n } := by
    cases keys with
    | none => rfl
    | some k =>
        rw [Page.session?, Option.map_some, Option.map_some, Page.session, Page.session, hrxSeq, htxSeq]
  constructor
  · exact htalk
  · exact h.faces
  · rw [hsession, hsaid]
    cases keys with
    | none => exact h.up
    | some k => exact Direction.writer_accepts h.up n
  · exact ⟨h.within.1, h.within.2.trans hwrote.length_le⟩
  · rw [hsaid]
    exact h.told
  · rw [hsession]
    exact hdown
  · exact h.bears
  · have := h.arrived
    rw [List.length_cons] at this
    show v.arrived = _
    omega
  · have := h.bounded
    rw [List.length_cons] at this
    omega
  · rw [hdrop']
    exact hrest
  · exact fun frame hframe => h.safe frame (List.mem_cons_of_mem _ hframe)
  · rw [hincoming, h.timeline, List.take_add_one, hnext, List.map_append, List.append_assoc]
    rfl

/-- The user says something. -/
theorem Line.say (h : Line rt browser keys i c start v unread wrote pending relayed heard)
    (hhmac : browser.hmac = rt.hmac) {text : String} {frame : Frame} {page : Page}
    {wrote' : List (String × Frame)} {pending' : List (String × SealedFrame)}
    (htalk : Talk browser keys c start.page page unread wrote' pending') (hwrote : wrote <+: wrote')
    (hsaid : letters wrote' pending' = letters wrote pending ++ [((text, "browser"), frame)])
    (hincoming : page.incoming = v.page.incoming) (hrxSeq : page.rxSeq = v.page.rxSeq)
    (hmakes : Makes browser keys v.page page text frame) :
    Line rt browser keys i c start { v with page } unread wrote' pending' relayed heard := by
  have hwithin : v.received - start.received ≤ (letters wrote pending).length := by
    rw [letters, List.length_append, List.length_map]
    exact Nat.le_add_right_of_le h.within.2
  -- what the call makes of the two directions
  have hsides : Direction rt (pageEncoding browser.json) (page.session? keys) (v.hub.client i).session
      (letters wrote' pending') (v.received - start.received) ∧
      Direction rt (encoding rt) (v.hub.client i).session (page.session? keys) relayed heard := by
    rw [hsaid]
    cases hmakes with
    | plain txSeq => exact ⟨Direction.chat h.up text "browser", h.down⟩
    | @secured k _ _ _ frame makes txSeq =>
        have hsession : page.session? (some k) =
            some { v.page.session k with txSeq := (v.page.session k).txSeq + 1 } := by
          rw [Page.session?, Option.map_some, Page.session, hrxSeq, txSeq]
          rfl
        rw [hhmac] at makes
        rw [hsession]
        refine ⟨Direction.«seal» h.up hwithin makes, ?_⟩
        have hwrites := h.down.reader_writes text "browser"
        rw [Page.session?, Option.map_some, outgoing_snd] at hwrites
        exact hwrites
  constructor
  · exact htalk
  · exact h.faces
  · exact hsides.1
  · exact ⟨h.within.1, h.within.2.trans hwrote.length_le⟩
  · rw [hsaid, List.take_append_of_le_length hwithin]
    exact h.told
  · exact hsides.2
  · exact h.bears
  · exact h.arrived
  · exact h.bounded
  · exact h.pipe
  · exact h.safe
  · exact hincoming.trans h.timeline

/-- The page does something. -/
theorem Line.use (h : Line rt browser keys i c start v unread wrote pending relayed heard)
    (hjson : JsonInterop rt browser.json) (hhmac : browser.hmac = rt.hmac)
    (hkey : ∀ k, keys = some k → k.clientMac ≠ [] ∧ k.serverMac ≠ []) {event : PageEvent} {page : Page}
    (hown : event.Own) (hturn : v.page.InTurn event) (hnext : v.page.next browser grp event = some page) :
    ∃ unread wrote pending heard,
      Line rt browser keys i c start { v with page } unread wrote pending relayed heard := by
  obtain ⟨unread', wrote', pending', hwrote, htalk, hmove⟩ :=
    h.talk.own (fun k hk => (hkey k hk).1) hown hturn hnext
  cases hmove with
  | idle same said incoming rxSeq txSeq =>
      subst same
      refine ⟨unread', wrote', pending', heard, ?_⟩
      have hsession : page.session? keys = v.page.session? keys := session?_eq rxSeq txSeq
      constructor
      · exact htalk
      · exact h.faces
      · rw [hsession, said]
        exact h.up
      · exact ⟨h.within.1, h.within.2.trans hwrote.length_le⟩
      · rw [said]
        exact h.told
      · rw [hsession]
        exact h.down
      · exact h.bears
      · exact h.arrived
      · exact h.bounded
      · exact h.pipe
      · exact h.safe
      · exact incoming.trans h.timeline
  | reads oldest said incoming rxSeq txSeq =>
      exact ⟨_, _, _, _, h.hear hjson hhmac hkey oldest htalk hwrote said incoming rxSeq txSeq⟩
  | speaks same said incoming rxSeq makes =>
      subst same
      exact ⟨_, _, _, _, h.say hhmac htalk hwrote said incoming rxSeq makes⟩

/-- The next frame arrives. -/
theorem Line.arrive (h : Line rt browser keys i c start v unread wrote pending relayed heard)
    {written : Written} {page : Page} (oldest : (v.hub.written i)[v.arrived]? = some written)
    (safe : SafeNumber written.frame) (next : v.page.next browser grp (.frame c written.frame) = some page) :
    Line rt browser keys i c start { v with page, arrived := v.arrived + 1 } (unread ++ [written.frame]) wrote
      pending relayed heard := by
  have hpage : page =
      { v.page with toPlumbing := v.page.toPlumbing.onFrame { connection := c, frame := written.frame } } := by
    rw [Page.next, if_pos h.talk.opened] at next
    exact (Option.some.inj next).symm
  obtain ⟨hlt, hwritten⟩ := List.getElem?_eq_some_iff.mp oldest
  have hlt' : v.arrived < relayed.length := h.bears.length_eq ▸ hlt
  have hletter : relayed[v.arrived].2 = written.frame := by
    obtain ⟨b, message, hbears, _⟩ : Bears v.hub.broadcasts written relayed[v.arrived] := by
      have := List.Forall₂.get h.bears hlt hlt'
      rw [List.get_eq_getElem, List.get_eq_getElem, hwritten] at this
      exact this
    rw [hbears]
    rfl
  have hlast : (relayed.drop heard)[unread.length]? = some relayed[v.arrived] := by
    rw [List.getElem?_drop, ← h.arrived]
    exact List.getElem?_eq_getElem hlt'
  have hsession : page.session? keys = v.page.session? keys := by
    rw [hpage]
    rfl
  constructor
  · rw [hpage]
    exact h.talk.arrive written.frame
  · exact h.faces
  · rw [hsession]
    exact h.up
  · exact h.within
  · exact h.told
  · rw [hsession]
    exact h.down
  · exact h.bears
  · have := h.arrived
    rw [List.length_append, List.length_singleton]
    show v.arrived + 1 = _
    omega
  · have := h.arrived
    rw [List.length_append, List.length_singleton]
    omega
  · rw [List.length_append, List.length_singleton, List.take_add_one, hlast, List.map_append, ← h.pipe,
      Option.toList_some, List.map_singleton, hletter]
  · intro frame hframe
    rcases List.mem_append.mp hframe with hold | hnew
    · exact h.safe frame hold
    · rw [List.mem_singleton.mp hnew]
      exact safe
  · rw [hpage]
    exact h.timeline

/-- The server receives the next frame: the loop broadcasts what the user has said. -/
theorem Line.receive (h : Line rt browser keys i c start v unread wrote pending relayed heard)
    (hbegin : start.received = (start.page.sentOn c).length)
    (hpayload : ∀ message, decodeMessage rt (pageEncoding browser.json message) = .ok message)
    (hwire : ∀ frame : Frame, frame.IsMessage → parseMessage rt (wire frame) = .ok frame) {frame : Frame}
    (oldest : (v.page.sentOn c)[v.received]? = some frame) :
    ∃ text client',
      messageLoopBody rt (v.hub.client i) (wire frame) = (.ok (.broadcast text "browser"), client') ∧
      ∀ (hub : Hub) (new : Broadcast), new.sender = i → new.text = text → new.senderName = "browser" →
        hub.client i = client' → hub.written i = v.hub.written i → hub.broadcasts = v.hub.broadcasts ++ [new] →
        Line rt browser keys i c start { v with hub, received := v.received + 1 } unread wrote pending relayed
          heard := by
  have hwrote : (wrote.map Prod.snd)[v.received - start.received]? = some frame := by
    rw [h.talk.sent, List.getElem?_append_right (hbegin ▸ h.within.1), ← hbegin] at oldest
    exact oldest
  rw [List.getElem?_map] at hwrote
  obtain ⟨⟨text, frame⟩, hentry, rfl⟩ := Option.map_eq_some_iff.mp hwrote
  obtain ⟨hlt, _⟩ := List.getElem?_eq_some_iff.mp hentry
  have hnext : (letters wrote pending)[v.received - start.received]? = some ((text, "browser"), frame) := by
    rw [letters, List.getElem?_append_left (by rw [List.length_map]; exact hlt), List.getElem?_map, hentry]
    rfl
  obtain ⟨reader, htaken, hup⟩ := h.up.take hpayload hnext
  have hname : senderOr "browser" (v.hub.client i).name = "browser" := rfl
  have hbody := htaken.messageLoopBody (hwire frame htaken.isMessage)
  rw [hname] at hbody
  refine ⟨text, _, hbody, fun hub new hsender htext hsenderName hclient hwritten hlog => ?_⟩
  have hcount : v.received + 1 - start.received = v.received - start.received + 1 :=
    Nat.sub_add_comm h.within.1
  constructor
  · exact h.talk
  · rw [hclient]
    exact h.faces.taken htaken
  · rw [hclient, hcount]
    exact hup
  · rw [hcount]
    exact ⟨Nat.le_succ_of_le h.within.1, hlt⟩
  · have hlast : [new].filter (·.sender = i) = [new] := by simp [hsender]
    rw [hlog, hcount, broadcastBy, List.filter_append, hlast, List.map_append, ← broadcastBy, h.told,
      List.take_add_one, hnext, List.map_append, List.map_singleton, htext, hsenderName]
    rfl
  · rw [hclient]
    exact h.down.writer_reads htaken
  · rw [hwritten, hlog]
    exact h.bears.imp fun _ _ hone => hone.append _
  · exact h.arrived
  · exact h.bounded
  · exact h.pipe
  · exact h.safe
  · exact h.timeline

/-- The server writes nothing to the browser, and broadcasts nothing of it. -/
theorem Line.of_hub (h : Line rt browser keys i c start v unread wrote pending relayed heard) {hub : Hub}
    (hfaces : Faces keys (hub.client i).session)
    (hup : Direction rt (pageEncoding browser.json) (v.page.session? keys) (hub.client i).session
      (letters wrote pending) (v.received - start.received))
    (hdown : Direction rt (encoding rt) (hub.client i).session (v.page.session? keys) relayed heard)
    (htold : broadcastBy hub.broadcasts i = broadcastBy v.hub.broadcasts i)
    (hbears : List.Forall₂ (Bears hub.broadcasts) (hub.written i) relayed) :
    Line rt browser keys i c start { v with hub } unread wrote pending relayed heard := by
  constructor
  · exact h.talk
  · exact hfaces
  · exact hup
  · exact h.within
  · exact htold.trans h.told
  · exact hdown
  · exact hbears
  · exact h.arrived
  · exact h.bounded
  · exact h.pipe
  · exact h.safe
  · exact h.timeline

/-- The server does something else. -/
theorem Line.work (h : Line rt browser keys i c start v unread wrote pending relayed heard) {hub : Hub}
    (haside : Hub.Aside rt i v.hub hub) :
    ∃ relayed, Line rt browser keys i c start { v with hub } unread wrote pending relayed heard := by
  obtain ⟨more, hlog, hothers⟩ := haside.log
  have hnone : broadcastBy hub.broadcasts i = broadcastBy v.hub.broadcasts i := by
    have hfilter : more.filter (·.sender = i) = [] := by
      apply List.filter_eq_nil_iff.mpr
      intro message hmessage hsame
      exact hothers message hmessage (of_decide_eq_true hsame)
    rw [hlog, broadcastBy, List.filter_append, hfilter, List.append_nil]
    rfl
  have hbears : List.Forall₂ (Bears hub.broadcasts) (v.hub.written i) relayed := by
    rw [hlog]
    exact h.bears.imp fun _ _ hone => hone.append more
  cases haside.toward with
  | silent client written =>
      refine ⟨relayed, h.of_hub ?_ ?_ ?_ hnone ?_⟩
      · rw [client]
        exact h.faces
      · rw [client]
        exact h.up
      · rw [client]
        exact h.down
      · rw [written]
        exact hbears
  | @delivers b message frame client' log frames client written =>
      rw [RegisteredClient.deliver_eq] at frames
      obtain ⟨hframe, rfl⟩ := Prod.mk.inj frames
      have hheard : heard ≤ relayed.length := (Nat.le_add_right _ _).trans h.bounded
      have hlogged : hub.broadcasts[b]? = some message := by
        rw [hlog]
        exact Fanout.getElem?_append_of_some log more
      refine ⟨relayed ++ [((message.text, message.senderName), frame)], ?_⟩
      constructor
      · exact h.talk
      · rw [client]
        exact h.faces.outgoing _ _
      · rw [client]
        exact h.up.reader_writes _ _
      · exact h.within
      · exact hnone.trans h.told
      · rw [client]
        exact h.down.write hheard hframe
      · rw [written]
        exact List.rel_append hbears (.cons ⟨b, message, rfl, hlogged, rfl⟩ .nil)
      · exact h.arrived
      · rw [List.length_append]
        exact Nat.le_add_right_of_le h.bounded
      · have hroom : unread.length ≤ (relayed.drop heard).length := by
          have := h.bounded
          rw [List.length_drop]
          omega
        rw [List.drop_append_of_le_length hheard, List.take_append_of_le_length hroom]
        exact h.pipe
      · exact h.safe
      · rw [List.take_append_of_le_length hheard]
        exact h.timeline
  | @fails text sender result client' frames client written =>
      rw [RegisteredClient.deliver_eq] at frames
      obtain ⟨_, rfl⟩ := Prod.mk.inj frames
      refine ⟨relayed, h.of_hub ?_ ?_ ?_ hnone ?_⟩
      · rw [client]
        exact h.faces.outgoing text sender
      · rw [client]
        exact h.up.reader_writes text sender
      · rw [client]
        exact h.down.lose text sender
      · rw [written]
        exact hbears

end Steps

/-! ### Runs of a visit -/

section Runs

variable {rt : Runtime} {browser : Browser} {grp : ModpGroup} {wire : Frame → WsMessage}
  {keys : Option SessionKeys} {i c : Nat} {start v v' : Visit}

/-- A visit as it begins. -/
theorem Begins.sound (h : start.Begins rt keys i c) : Sound rt browser keys i c start start := by
  obtain ⟨hub, page, arrived, received⟩ := start
  obtain ⟨⟨before, name, hrun, hjoin⟩, hstate, hkeys, ⟨htxSeq, hrxSeq⟩, hws, hopened, hwaiters, hjobs, rfl, _⟩ :=
    h
  obtain ⟨failed, hattended⟩ := hrun.attended
  have hsession : page.session? keys = keys.map (.new · true false) := by
    cases keys with
    | none => rfl
    | some k =>
        rw [Page.session?, Option.map_some, Page.session, htxSeq, hrxSeq]
        rfl
  have hinbox : page.mail.inbox = [] := by
    apply page.mail.idle.resolve_right
    rw [hwaiters]
    exact List.cons_ne_nil _ _
  have hnone : ∀ kind : Job → Bool, page.jobs.filter kind = [] := by
    intro kind
    rw [hjobs]
    rfl
  have htalk : Talk browser keys c page page [] [] [] := by
    constructor
    · exact hstate
    · exact hkeys
    · exact hws
    · exact hopened
    · exact htxSeq.ge
    · intro job hjob
      rw [hjobs] at hjob
      cases hjob
    · exact .waiting hwaiters hinbox (hnone _)
    · exact (List.append_nil _).symm
    · exact (List.append_nil _).symm
    · exact hnone _
    · exact fun _ => rfl
  have hjoined : (∃ failed, hub.Attended failed) ∧ hub.thread i = .looping ∧
      (hub.client i).session = keys.map (.new · false false) ∧ hub.Untouched i := by
    cases hjoin with
    | join free fresh =>
        have hself : update before.client i { name, session := keys.map (.new · false false) } i =
            { name, session := keys.map (.new · false false) } := update_self _ _ _
        exact ⟨⟨failed, hattended.join free⟩, update_self _ _ _, congrArg RegisteredClient.session hself,
          hrun.untouched i free⟩
  obtain ⟨hattended', hthread, hclient, hwritten, hbroadcasts⟩ := hjoined
  refine ⟨hattended', fun habsent => Thread.noConfusion (hthread.symm.trans habsent),
    hthread ▸ Hub.unraised_looping, [], [], [], [], 0, ?_⟩
  constructor
  · exact htalk
  · rw [hclient]
    exact ⟨0, 0, rfl⟩
  · rw [hclient, hsession, Nat.sub_self]
    cases keys with
    | none => exact .start_plain
    | some k => exact .start k true false false
  · rw [Nat.sub_self]
    exact ⟨le_rfl, le_rfl⟩
  · rw [Nat.sub_self]
    exact hbroadcasts
  · rw [hclient, hsession]
    cases keys with
    | none => exact .start_plain
    | some k => exact .start k false false false
  · rw [hwritten]
    exact .nil
  · rfl
  · exact le_rfl
  · rfl
  · exact List.forall_mem_nil _
  · exact (List.append_nil _).symm

/-- Every step keeps a visit sound. -/
theorem Sound.step (h : Sound rt browser keys i c start v)
    (hbegin : start.received = (start.page.sentOn c).length) (hjson : JsonInterop rt browser.json)
    (hhmac : browser.hmac = rt.hmac) (hkey : ∀ k, keys = some k → k.clientMac ≠ [] ∧ k.serverMac ≠ [])
    (hpayload : ∀ message, decodeMessage rt (pageEncoding browser.json message) = .ok message)
    (hwire : ∀ frame : Frame, frame.IsMessage → parseMessage rt (wire frame) = .ok frame)
    (hstep : VisitStep rt browser grp wire i c v v') : Sound rt browser keys i c start v' := by
  obtain ⟨unread, wrote, pending, relayed, heard, hline⟩ := h.line
  cases hstep with
  | use own turn next =>
      obtain ⟨unread', wrote', pending', heard', hline'⟩ := hline.use hjson hhmac hkey own turn next
      exact ⟨h.attended, h.joined, h.unraised, _, _, _, _, _, hline'⟩
  | arrive oldest safe next =>
      exact ⟨h.attended, h.joined, h.unraised, _, _, _, _, _, hline.arrive oldest safe next⟩
  | @receive frame hub oldest step =>
      obtain ⟨failed, hattended⟩ := h.attended
      obtain ⟨text, client', hbody, hnext⟩ := hline.receive hbegin hpayload hwire oldest
      have hattended' := hattended.step step
      cases step with
      | reply looping body healthy =>
          rw [hbody] at body
          cases (Prod.mk.inj body).1
      | replyFails looping body failed =>
          rw [hbody] at body
          cases (Prod.mk.inj body).1
      | crash looping body =>
          rw [hbody] at body
          cases (Prod.mk.inj body).1
      | @broadcast _ _ _ text' senderName client todo looping body snapshot =>
          rw [hbody] at body
          obtain ⟨haction, rfl⟩ := Prod.mk.inj body
          obtain ⟨rfl, rfl⟩ := LoopAction.broadcast.inj (Except.ok.inj haction)
          have hthread : update v.hub.thread i (.broadcasting v.hub.broadcasts.length todo) i =
              .broadcasting v.hub.broadcasts.length todo := update_self _ _ _
          refine ⟨hattended', ?_, ?_, unread, wrote, pending, relayed, heard, ?_⟩
          · exact fun hnone => Thread.noConfusion (hthread.symm.trans hnone)
          · show Hub.Unraised (update v.hub.thread i (.broadcasting v.hub.broadcasts.length todo) i)
            rw [hthread]
            exact Hub.unraised_broadcasting _ todo
          · exact hnext _ _ rfl rfl rfl (update_self _ _ _) rfl rfl
  | work other joined step =>
      obtain ⟨failed, hattended⟩ := h.attended
      have haside := Hub.aside_step step other joined h.joined h.unraised
      obtain ⟨relayed', hline'⟩ := hline.work haside
      exact ⟨hattended.step step, haside.joined, haside.unraised, _, _, _, _, _, hline'⟩

/-- Every visit that a run reaches is sound. -/
theorem Run.sound (hbegins : start.Begins rt keys i c) (hjson : JsonInterop rt browser.json)
    (hhmac : browser.hmac = rt.hmac) (hkey : ∀ k, keys = some k → k.clientMac ≠ [] ∧ k.serverMac ≠ [])
    (hpayload : ∀ message, decodeMessage rt (pageEncoding browser.json message) = .ok message)
    (hwire : ∀ frame : Frame, frame.IsMessage → parseMessage rt (wire frame) = .ok frame)
    (hrun : Run rt browser grp wire i c start v) : Sound rt browser keys i c start v := by
  induction hrun with
  | refl => exact hbegins.sound
  | tail _ hstep ih => exact ih.step hbegins.received hjson hhmac hkey hpayload hwire hstep

/-! ### What a visit conveys -/

/-- The browser is registered, everything that was written to it has arrived, and the loop of the page awaits a
frame. -/
structure CaughtUp (i : Nat) (v : Visit) : Prop where
  registered : i ∈ v.hub.registry
  kept : ¬ v.hub.BeingDropped i
  served : ∀ b, ¬ v.hub.Pending b i
  arrived : v.arrived = (v.hub.written i).length
  awaits : v.page.mail.waiters ≠ []

/-- What a visit conveys. The thread of the connection has not ended with an exception of the loop, and nothing
but relayed messages was written to it. What the timeline has gained as outgoing are texts, and the server has
broadcast those of them, in order, whose frames it has received. What it has gained as incoming are broadcasts
of others that were made while the browser was registered, unaltered, those of each sender in their order and
each at most once, and all of them once the browser has caught up. -/
structure Conveys (i c : Nat) (start v : Visit) : Prop where
  unraised : Hub.Unraised (v.hub.thread i)
  errorless : ∀ written ∈ v.hub.written i, ∃ b frame, written = .relayed b frame
  spoken : ∃ texts : List String,
    v.page.outgoing = start.page.outgoing ++ texts.map (fun text => some (.string text)) ∧
    (v.page.sentOn c).length = start.received + texts.length ∧
    broadcastBy v.hub.broadcasts i =
      (texts.take (v.received - start.received)).map fun text => (text, "browser")
  heard : ∃ messages : List Broadcast,
    v.page.incoming =
      start.page.incoming ++ messages.map (fun message => shown (message.text, message.senderName)) ∧
    (∀ message ∈ messages, i ∈ message.registered ∧ i ≠ message.sender) ∧
    (∀ j, (messages.filter (·.sender = j)).Sublist (v.hub.broadcasts.filter (·.sender = j))) ∧
    (v.CaughtUp i → messages.Perm (v.hub.broadcasts.filter fun message =>
      i ∈ message.registered ∧ i ≠ message.sender))

/-- A sound visit conveys what is said. -/
theorem Sound.conveys (h : Sound rt browser keys i c start v)
    (hbegin : start.received = (start.page.sentOn c).length) : Conveys i c start v := by
  obtain ⟨failed, hattended⟩ := h.attended
  obtain ⟨unread, wrote, pending, relayed, heard, hline⟩ := h.line
  obtain ⟨messages, hmessages, hmeant, horder, hall⟩ := Room.messages_of hattended hline.bears heard
  refine ⟨h.unraised, fun written hwritten => ?_, ⟨wrote.map Prod.fst, ?_, ?_, ?_⟩,
    messages, ?_, hmeant, horder, fun hcaught => ?_⟩
  · obtain ⟨n, hn, rfl⟩ := List.getElem_of_mem hwritten
    have hn' : n < relayed.length := hline.bears.length_eq ▸ hn
    obtain ⟨b, _, hrelayed, _⟩ := List.Forall₂.get hline.bears hn hn'
    exact ⟨b, _, hrelayed⟩
  · rw [List.map_map]
    exact hline.talk.outgoing
  · rw [hline.talk.sent, List.length_append, List.length_map, List.length_map, hbegin]
  · have hwithin : v.received - start.received ≤
        (wrote.map fun entry => ((entry.1, "browser"), entry.2)).length := by
      rw [List.length_map]
      exact hline.within.2
    rw [hline.told, letters, List.take_append_of_le_length hwithin, ← List.map_take, ← List.map_take,
      List.map_map, List.map_map]
    rfl
  · have hcopied := congrArg (List.map shown) hmessages
    rw [List.map_map, List.map_map] at hcopied
    exact hline.timeline.trans (congrArg (start.page.incoming ++ ·) hcopied)
  · have hnone : unread = [] := by
      cases hline.talk.stage with
      | waiting waiters inbox jobs => rfl
      | handed waiters inbox jobs => exact absurd waiters hcaught.awaits
      | opening waiters inbox jobs => exact absurd waiters hcaught.awaits
    have harrived := hline.arrived
    rw [hnone, List.length_nil, Nat.add_zero] at harrived
    exact hall hcaught.registered hcaught.kept hcaught.served (harrived.symm.trans hcaught.arrived)

end Runs

end Visit

end Ui

/-- A browser takes part in the chat. Let the page be initialised once and ready on a connection that the server
has just registered, on an open node without keys and, in a browser that provides `enc`, on a protected one with
those of the session, and let each side read the JSON texts of the other. Then in every run, in which the user
types and sends, calls of the page go on in any order that keeps the calls of `send` in theirs, frames arrive and
are received in order, their numbers are safe integers of the page's language, and the server's threads and all
other connections do as they like, the timeline shows what was broadcast to the browser, and what its user sends
is broadcast. -/
theorem browser_takes_part (rt : Runtime) (browser : Ui.Browser) (grp : ModpGroup) (wire : Frame → WsMessage)
    (hjson : JsonInterop rt browser.json) (hhmac : browser.hmac = rt.hmac)
    (hpayload : ∀ message, decodeMessage rt (Ui.pageEncoding browser.json message) = .ok message)
    (hwire : ∀ frame : Frame, frame.IsMessage → parseMessage rt (wire frame) = .ok frame)
    (keys : Option SessionKeys) (hkey : ∀ k, keys = some k → k.clientMac ≠ [] ∧ k.serverMac ≠ []) {i c : Nat}
    {start v : Ui.Visit} (hbegins : start.Begins rt keys i c)
    (hrun : Ui.Visit.Run rt browser grp wire i c start v) :
    Ui.Visit.Conveys i c start v :=
  (hrun.sound hbegins hjson hhmac hkey hpayload hwire).conveys hbegins.received

/-- The page that has been loaded from an open node, before and after a message of another user; then its own
user answers. -/
theorem browser_takes_part_open : ∃ start v : Ui.Visit,
    (Ui.Page.loaded 7).runEvents Ui.sampleBrowser Ui.group
      [.init true, .open 0 "2024-01-01T00:00:00.000Z", .frame 0 (.helloAck "active" "Node" false), .advance 0] =
        some start.page ∧
    v.page.incoming = [Ui.shown ("hi", "ann")] ∧ broadcastBy v.hub.broadcasts 0 = [("hello", "browser")] ∧
    Ui.Visit.Conveys 0 0 start v := by
  let rt := sampleRuntime hmacSha256
  have hjson : JsonInterop rt Ui.sampleBrowser.json := jsonInterop_sample
  have hpayload : ∀ message, decodeMessage rt (Ui.pageEncoding Ui.sampleBrowser.json message) = .ok message :=
    decodeMessage_encoding (jsonRoundTrip_sample hmacSha256)
  have hwire : ∀ frame : Frame, frame.IsMessage → parseMessage rt (wire rt frame) = .ok frame := by
    intro frame hframe
    apply loads_dumps_sample
    cases frame with
    | chat _ _ | «sealed» _ => rfl
    | _ => exact hframe.elim
  have hkey : ∀ k : SessionKeys, none = some k → k.clientMac ≠ [] ∧ k.serverMac ≠ [] := by
    intro k hk
    cases hk
  have hbody : ∀ (client : RegisteredClient) (text sender : String), client.session = none →
      messageLoopBody rt client (wire rt (.chat text sender)) =
        (.ok (.broadcast text (senderOr sender client.name)), client) := by
    intro client text sender hopen
    rw [messageLoopBody, hwire (.chat text sender) trivial]
    simp only [hopen]
  -- another user is there, and the browser joins
  have hbefore : Hub.Run rt (fun _ _ => True) _ :=
    .step .start trivial (@HubStep.join rt .start 1 { name := "user1", session := none } rfl (.inl rfl))
  let page : Ui.Page := ((Ui.Page.loaded 7).runEvents Ui.sampleBrowser Ui.group
    [.init true, .open 0 "2024-01-01T00:00:00.000Z", .frame 0 (.helloAck "active" "Node" false),
      .advance 0]).get rfl
  let ann : RegisteredClient := { name := "user1", session := none }
  let guest : RegisteredClient := { name := "user7", session := none }
  let start : Ui.Visit :=
    { hub := { Hub.start with
        client := update (update Hub.start.client 1 ann) 0 guest
        thread := update (update Hub.start.thread 1 .looping) 0 .looping
        registry := [1, 0] }
      page
      arrived := 0
      received := 1 }
  have hbegins : start.Begins rt none 0 0 :=
    ⟨⟨_, "user7", hbefore, .join rfl (.inl rfl)⟩, rfl, rfl, ⟨rfl, rfl⟩, rfl, rfl, rfl, rfl, rfl, rfl⟩
  -- the other user's message comes to the timeline
  have hstart : Ui.Visit.Run rt Ui.sampleBrowser Ui.group (wire rt) 0 0 start start := .refl
  have hother : ∀ message message' : WsMessage, HubEvent.receive 1 message ≠ .receive 0 message' := by
    intro message message' hsame
    cases (HubEvent.receive.inj hsame).1
  have hsnapshot : [0].Perm ([1, 0].filter fun j => decide (j ≠ 1)) := List.Perm.refl _
  have hsaid := hstart.tail (.work (hother _) (fun _ => HubEvent.noConfusion)
    (.broadcast rfl (hbody ann "hi" "ann" rfl) hsnapshot))
  have hdelivered := hsaid.tail (@Ui.VisitStep.work _ _ _ _ _ _ _ (.deliver 1 0 0) _
    (fun _ => HubEvent.noConfusion) (fun _ => HubEvent.noConfusion) (.deliver rfl rfl rfl rfl))
  have harrived := hdelivered.tail (.arrive rfl trivial rfl)
  have hheard := harrived.tail (@Ui.VisitStep.use _ _ _ _ _ _ _ (.advance 0) _ trivial
    (fun text result hjob => Ui.Job.noConfusion (Option.some.inj hjob)) rfl)
  -- its own user answers
  have htrim : trim "hello" = "hello" := by decide +kernel
  have htyped := hheard.tail (@Ui.VisitStep.use _ _ _ _ _ _ _ (.typeDraft "hello") _ trivial trivial rfl)
  have hsent := htyped.tail (@Ui.VisitStep.use _ _ _ _ _ _ _ .send _ trivial
    (.inr (show (0 : Int) < 2 ^ 53 by decide))
    (congrArg some (Ui.Page.send_plain Ui.sampleBrowser _ htrim (by decide) rfl rfl)))
  have hreceived := hsent.tail (@Ui.VisitStep.receive _ _ _ _ _ _ _ (.chat "hello" "browser") _ rfl
    (.broadcast rfl (hbody guest "hello" "browser" rfl) (List.Perm.refl _)))
  exact ⟨start, _, rfl, rfl, rfl, browser_takes_part rt Ui.sampleBrowser Ui.group (wire rt) hjson rfl hpayload
    hwire none hkey hbegins hreceived⟩

end Priestly
