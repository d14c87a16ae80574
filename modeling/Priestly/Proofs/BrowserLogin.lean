/-
Module: Priestly.Proofs.BrowserLogin
Layer: Proofs
Purpose: The page authenticates to a node: the component and `run_server` at the two ends of an open
  connection. `authenticate` calls `enc`, which the script of the page does not have in scope, so it ends
  with "Check the secret" for every password, before it has sent a frame. In a browser that happened to
  provide `enc`, the same call would always come to its end with the keys of the node's session.
Imports: Priestly.Ui.Component, Priestly.Proofs.BrowserHandshake, Priestly.Proofs.BrowserRouting,
  Priestly.Proofs.Completeness
Trusted boundary: what a browser provides is a parameter, without a global `enc`
Main exports: Login, LoginStep, Authenticates, authenticate_fails, authenticates_of_encoder
-/
import Priestly.Proofs.BrowserHandshake
import Priestly.Proofs.BrowserRouting
import Priestly.Proofs.Completeness
import Priestly.Ui.Component

namespace Priestly

open ByteCodec Interaction Ui

/-! ### The page and a node -/

/-- The page and the node's handshake at the two ends of a connection. -/
structure Login where
  page : Page
  server : Driver SessionState
  /-- What the node has written and the page has not been given. -/
  toPage : List Frame
  /-- How many frames of the connection the node has read. -/
  reads : Nat

section System

variable (browser : Browser) (grp : ModpGroup)
-- The text is `JSON.stringify({ version: 1, frame })`.
variable (packetText : Frame → String) (connection : Nat)

/-- One step: a call of the page goes on, the page is given a frame, or the node writes or reads one. -/
inductive LoginStep : Login → Login → Prop where
  | advance {s : Login} {position : Nat} {page : Page}
      (going : s.page.next browser grp (.advance position) = some page) :
      LoginStep s { s with page }
  | deliver {s : Login} {frame : Frame} {rest : List Frame} {page : Page}
      (queued : s.toPage = frame :: rest)
      (given : s.page.next browser grp (.frame connection frame) = some page) :
      LoginStep s { s with page, toPage := rest }
  | serverSend {s : Login} {message : Frame} {next : Option Exn → Driver SessionState}
      (writing : s.server = .send message next) :
      LoginStep s { s with server := next none, toPage := s.toPage ++ [message] }
  | serverRecv {s : Login} {frame : Frame} {next : Except Exn WsMessage → Driver SessionState}
      (reading : s.server = .recv next) (sent : (s.page.sentOn connection)[s.reads]? = some frame) :
      LoginStep s { s with server := next (.ok (.text (packetText frame))), reads := s.reads + 1 }

/-- The page shows that it is authenticated, and holds the keys of the node's session: the client's are the
ones the node receives with. -/
structure LoggedIn (s : Login) : Prop where
  ended : s.page.jobs = []
  authenticated : s.page.authenticated = true
  state : s.page.state = .ready
  counters : s.page.txSeq = 0 ∧ s.page.rxSeq = 0
  keys : ∃ session, s.server = .done session ∧
    s.page.keys = some { clientMac := session.rxMac, serverMac := session.txMac }

/-- A call of `authenticate` with the exponent `a`, against a node that holds the same password and has the
exponent `b`, comes to its end under every schedule, with the page authenticated. -/
def Authenticates (rt : Runtime) (page : Page) (a b : Nat) : Prop :=
  Inevitable (LoginStep browser grp packetText connection) LoggedIn
    { page := page.authenticate browser grp a
      server := runServer rt grp b (utf8Encode page.password)
      toPage := []
      reads := (page.sentOn connection).length }

end System

/-- The page on an open connection, with these functions awaiting a frame and these calls going on. -/
structure Ui.Page.At (connection : Nat) (waiters : List Consumer) (jobs : List Job) (page : Page) :
    Prop where
  ws : page.ws = some connection
  opened : page.sockets[connection]? = some .opened
  inbox : page.mail.inbox = []
  waiters : page.mail.waiters = waiters
  jobs : page.jobs = jobs

/-- The page on an open connection whose `HELLO_ACK` was read and required a password. -/
structure Ui.Page.AtGate (connection : Nat) (page : Page) : Prop extends page.At connection [] [] where
  acked : ∃ entry ∈ page.mail.consumed, entry.1.connection = connection
  gate : page.needsPassword = true

/-! ### Without `enc` -/

section Fails

variable {browser : Browser} {grp : ModpGroup} {packetText : Frame → String} {connection : Nat}

/-- The call ends at once, in the `catch`. -/
theorem authenticate_eq_refused (henc : browser.globals.lookup "enc" = none) {page : Page}
    (hpassword : page.password ≠ "") (a : BigInt) :
    page.authenticate browser grp a = page.refused := by
  rw [Page.authenticate, if_neg hpassword]
  dsimp only
  rw [encode_of_none henc]
  rfl

/-- The node is left waiting for the commitment, and nothing further happens. -/
theorem not_authenticates (henc : browser.globals.lookup "enc" = none) (rt : Runtime) {page : Page}
    (hat : page.At connection [] []) (hpassword : page.password ≠ "") (a b : Nat) :
    ¬ Authenticates browser grp packetText connection rt page a b := by
  intro hauthenticates
  rw [Authenticates, authenticate_eq_refused henc hpassword] at hauthenticates
  cases hauthenticates with
  | here reached => cases reached.state
  | step alive all =>
      obtain ⟨s, hstep⟩ := alive
      cases hstep with
      | advance going =>
          have hjobs : page.refused.jobs = [] := hat.jobs
          rw [Page.next, hjobs] at going
          cases going
      | deliver queued given => cases queued
      | serverSend writing =>
          rw [runServer, recvFrame_bind] at writing
          cases writing
      | serverRecv reading sent =>
          have hlength : (page.refused.sentOn connection).length = (page.sentOn connection).length := rfl
          obtain ⟨hlt, _⟩ := List.getElem?_eq_some_iff.mp sent
          exact absurd (hlength ▸ hlt) (Nat.lt_irrefl _)

end Fails

/-! ### The page at an open connection -/

namespace Ui

namespace Page

section At

variable {connection : Nat} {waiters : List Consumer} {jobs : List Job} {page : Page}

/-- A frame is sent on the connection. -/
theorem At.sendFrame (h : page.At connection waiters jobs) (frame : Frame) :
    (page.sendFrame frame).At connection waiters jobs ∧
      (page.sendFrame frame).sentOn connection = page.sentOn connection ++ [frame] := by
  have hsent : page.toPlumbing.sendFrame frame =
      { page.toPlumbing with sent := page.sent ++ [(connection, frame)] } := by
    rw [Plumbing.sendFrame]
    split
    · rename_i hws
      rw [h.ws] at hws
      cases hws
    · rename_i other hws
      rw [h.ws] at hws
      obtain rfl := Option.some.inj hws
      exact if_pos h.opened
  rw [Page.sendFrame, hsent]
  constructor
  · exact ⟨h.ws, h.opened, h.inbox, h.waiters, h.jobs⟩
  · simp only [Plumbing.sentOn, List.filter_append, List.map_append]
    simp

/-- With nothing unread, a reader waits. -/
theorem At.nextFrame (h : page.At connection [] jobs) (consumer : Consumer) :
    (page.nextFrame consumer).At connection [consumer] jobs ∧
      (page.nextFrame consumer).sentOn connection = page.sentOn connection := by
  rw [Page.nextFrame, Plumbing.nextFrame_eq]
  rcases page.mail.take_cases consumer with ⟨_, _, hinbox, _⟩ | ⟨hnone, _, hinbox, hwaiters, _⟩
  · rw [h.inbox] at hinbox
    cases hinbox
  · rw [hnone]
    constructor
    · constructor
      · exact h.ws
      · exact h.opened
      · exact hinbox
      · rw [hwaiters, h.waiters]
        rfl
      · exact (List.append_nil page.jobs).trans h.jobs
    · rfl

/-- A frame wakes the reader that waits. -/
theorem At.onFrame {consumer : Consumer} (h : page.At connection [consumer] []) (frame : Frame) :
    ∃ page' : Page, (∀ browser grp, page.next browser grp (.frame connection frame) = some page') ∧
      page'.At connection [] [.resumed consumer frame] ∧
      page'.sentOn connection = page.sentOn connection := by
  refine ⟨_, fun _ _ => if_pos h.opened, ?_⟩
  rw [Plumbing.onFrame_eq]
  rcases page.mail.put_cases { connection, frame } with ⟨waiter, hwoken, hcons, hinbox, _⟩ | ⟨_, hnil, _⟩
  · rw [h.waiters] at hcons
    obtain ⟨rfl, hrest⟩ := List.cons.inj hcons
    rw [hwoken]
    constructor
    · constructor
      · exact h.ws
      · exact h.opened
      · exact hinbox.trans h.inbox
      · exact hrest.symm
      · rw [h.jobs]
        rfl
    · rfl
  · rw [h.waiters] at hnil
    cases hnil

/-- The page once its jobs have been taken off. -/
theorem At.clear (h : page.At connection waiters jobs) :
    { page with jobs := [] }.At connection waiters [] :=
  ⟨h.ws, h.opened, h.inbox, h.waiters, rfl⟩

/-- The one job goes on, and no other. -/
theorem At.advance_iff {browser : Browser} {grp : ModpGroup} {job : Job} {position : Nat} {page' : Page}
    (h : page.At connection waiters [job]) :
    page.next browser grp (.advance position) = some page' ↔
      position = 0 ∧ page' = settle browser job { page with jobs := [] } := by
  rw [Page.next, h.jobs]
  cases position with
  | zero =>
      constructor
      · intro hnext
        exact ⟨rfl, (Option.some.inj hnext).symm⟩
      · rintro ⟨_, rfl⟩
        rfl
  | succ position =>
      constructor
      · intro hnext
        cases hnext
      · rintro ⟨hzero, _⟩
        cases hzero

/-- With no job, nothing goes on. -/
theorem At.not_advance {browser : Browser} {grp : ModpGroup} {position : Nat} {page' : Page}
    (h : page.At connection waiters []) : page.next browser grp (.advance position) ≠ some page' := by
  rw [Page.next, h.jobs]
  intro hnext
  cases hnext

/-- A script that writes one frame and reads one is left waiting, and the frame is sent. -/
theorem At.exchange (h : page.At connection [] []) (message : Frame) (k : Frame → Script Keys) :
    ∃ next page', (∀ frame, next (.ok frame) = k frame) ∧
      runCovenant (some connection) (Program.emit message >>= fun _ => Program.await >>= k) page = page' ∧
      page'.At connection [{ connection := some connection, resume := .runCovenant next }] [] ∧
      page'.sentOn connection = page.sentOn connection ++ [message] := by
  have hshape : ∃ next : Except Js.JsError Frame → Script Keys, (∀ frame, next (.ok frame) = k frame) ∧
      runCovenant (some connection) (Program.emit message >>= fun _ => Program.await >>= k) page =
        (page.sendFrame message).nextFrame
          { connection := some connection, resume := .runCovenant next } :=
    ⟨_, fun _ => rfl, rfl⟩
  obtain ⟨next, hnext, hpage⟩ := hshape
  obtain ⟨hat, hsent⟩ := h.sendFrame message
  obtain ⟨hwaits, hsame⟩ := hat.nextFrame { connection := some connection, resume := .runCovenant next }
  exact ⟨next, _, hnext, hpage, hwaits, hsame.trans hsent⟩

end At

end Page

end Ui

/-! ### Steps of the page and a node -/

namespace Login

section Steps

variable {browser : Browser} {grp : ModpGroup} {packetText : Frame → String} {connection : Nat}
variable {goal : Login → Prop} {page : Page} {server : Driver SessionState} {reads : Nat}

/-- The node has nothing to do: it has returned, or waits for a frame the page has not sent. -/
def Idle (server : Driver SessionState) (sent : List Frame) (reads : Nat) : Prop :=
  (∃ session, server = .done session) ∨ (∃ next, server = .recv next) ∧ sent.length ≤ reads

theorem Idle.not_send (h : Idle server (page.sentOn connection) reads) {message : Frame}
    {next : Option Exn → Driver SessionState} : server ≠ .send message next := by
  rcases h with ⟨_, rfl⟩ | ⟨⟨_, rfl⟩, _⟩
  · nofun
  · nofun

theorem Idle.not_recv (h : Idle server (page.sentOn connection) reads)
    {next : Except Exn WsMessage → Driver SessionState} {frame : Frame} (hserver : server = .recv next) :
    (page.sentOn connection)[reads]? ≠ some frame := by
  rcases h with ⟨_, rfl⟩ | ⟨_, hlength⟩
  · cases hserver
  · rw [List.getElem?_eq_none hlength]
    nofun

/-- A call of the page goes on while the node has nothing to do. -/
theorem inevitable_advance {job : Job} {waiters : List Consumer} (hat : page.At connection waiters [job])
    (hidle : Idle server (page.sentOn connection) reads)
    (h : Inevitable (LoginStep browser grp packetText connection) goal
      ⟨Page.settle browser job { page with jobs := [] }, server, [], reads⟩) :
    Inevitable (LoginStep browser grp packetText connection) goal ⟨page, server, [], reads⟩ := by
  refine Inevitable.of_unique (.advance (hat.advance_iff.mpr ⟨rfl, rfl⟩)) ?_ h
  intro s hstep
  cases hstep with
  | advance going =>
      obtain ⟨_, rfl⟩ := hat.advance_iff.mp going
      rfl
  | deliver queued given => cases queued
  | serverSend writing => exact absurd writing hidle.not_send
  | serverRecv reading sent => exact absurd sent (hidle.not_recv reading)

/-- The page is given a frame that it awaits, and the call that awaits it goes on, while the node has
nothing to do. -/
theorem inevitable_deliver {consumer : Consumer} {frame : Frame}
    (hat : page.At connection [consumer] [])
    (hidle : Idle server (page.sentOn connection) reads)
    (h : ∀ page' : Page, page'.At connection [] [] →
      page'.sentOn connection = page.sentOn connection →
      Inevitable (LoginStep browser grp packetText connection) goal
        ⟨Page.settle browser (.resumed consumer frame) page', server, [], reads⟩) :
    Inevitable (LoginStep browser grp packetText connection) goal ⟨page, server, [frame], reads⟩ := by
  obtain ⟨page', hgiven, hat', hsent⟩ := hat.onFrame frame
  have hnext : Inevitable (LoginStep browser grp packetText connection) goal
      ⟨page', server, [], reads⟩ := by
    apply inevitable_advance hat'
    · rw [hsent]
      exact hidle
    · exact h _ hat'.clear hsent
  refine Inevitable.of_unique (.deliver rfl (hgiven browser grp)) ?_ hnext
  intro s hstep
  cases hstep with
  | advance going => exact absurd going hat.not_advance
  | deliver queued given =>
      obtain ⟨rfl, rfl⟩ := List.cons.inj queued
      obtain rfl := Option.some.inj (given.symm.trans (hgiven browser grp))
      rfl
  | serverSend writing => exact absurd writing hidle.not_send
  | serverRecv reading sent => exact absurd sent (hidle.not_recv reading)

/-- The node reads the frame the page has sent, while the page waits. -/
theorem inevitable_serverRecv {consumer : Consumer} {frame : Frame} {prior : List Frame} {rt : Runtime}
    {k : Frame → Driver SessionState} (hat : page.At connection [consumer] [])
    (hsent : page.sentOn connection = prior ++ [frame])
    (hparse : parseMessage rt (.text (packetText frame)) = .ok frame)
    (h : Inevitable (LoginStep browser grp packetText connection) goal
      ⟨page, k frame, [], (prior ++ [frame]).length⟩) :
    Inevitable (LoginStep browser grp packetText connection) goal
      ⟨page, recvFrame rt >>= k, [], prior.length⟩ := by
  have hget : (page.sentOn connection)[prior.length]? = some frame := by
    rw [hsent, List.getElem?_append_right (Nat.le_refl _), Nat.sub_self]
    rfl
  rw [List.length_append, List.length_singleton] at h
  rw [recvFrame_bind]
  refine Inevitable.of_unique (.serverRecv rfl hget) ?_ ?_
  · intro s hstep
    cases hstep with
    | advance going => exact absurd going hat.not_advance
    | deliver queued given => cases queued
    | serverSend writing => cases writing
    | serverRecv reading sent =>
        obtain rfl := Option.some.inj (sent.symm.trans hget)
        cases reading
        rfl
  · simp only [hparse, Program.lift_ok, Program.done_bind]
    exact h

/-- The node writes a frame, while the page waits. -/
theorem inevitable_serverSend {consumer : Consumer} {message : Frame} {next : Unit → Driver SessionState}
    (hat : page.At connection [consumer] [])
    (h : Inevitable (LoginStep browser grp packetText connection) goal
      ⟨page, next (), [message], reads⟩) :
    Inevitable (LoginStep browser grp packetText connection) goal
      ⟨page, Program.emit message >>= next, [], reads⟩ := by
  refine Inevitable.of_unique (.serverSend rfl) ?_ h
  intro s hstep
  cases hstep with
  | advance going => exact absurd going hat.not_advance
  | deliver queued given => cases queued
  | serverSend writing =>
      cases writing
      rfl
  | serverRecv reading sent => cases reading

end Steps

end Login

/-! ### With `enc` -/

section Completes

variable {browser : Browser} {grp : ModpGroup} {packetText : Frame → String} {connection : Nat}
variable {rt : Runtime} {a b : Nat}

/-- The end of `runCovenant` is the end of `authenticate`: the page is ready, and `receiveLoop` waits. -/
theorem loggedIn_of_keys {page : Page} (hat : page.At connection [] []) {session : SessionState}
    {keys : Keys} (hkeys : keys = { clientMac := session.rxMac, serverMac := session.txMac })
    (toPage : List Frame) (reads : Nat) :
    LoggedIn ⟨Page.runCovenant (some connection) (.done keys) page, .done session, toPage, reads⟩ := by
  let ready : Page :=
    { page with keys := some keys, txSeq := 0, rxSeq := 0, authenticated := true, state := .ready }
  have hready : ready.At connection [] [] := ⟨hat.ws, hat.opened, hat.inbox, hat.waiters, hat.jobs⟩
  obtain ⟨hwaits, _⟩ := hready.nextFrame { connection := some connection, resume := .receiveLoop }
  have hloop : Page.runCovenant (some connection) (.done keys) page =
      ready.nextFrame { connection := some connection, resume := .receiveLoop } := rfl
  rw [hloop]
  constructor
  · exact hwaits.jobs
  · rfl
  · rfl
  · exact ⟨rfl, rfl⟩
  · exact ⟨session, rfl, congrArg some hkeys⟩

/-- In a browser with a global function `enc` that encodes texts, `authenticate` comes to its end with the
page authenticated, under every schedule. -/
theorem authenticates_of_encoder (henc : browser.globals.lookup "enc" = some encoder)
    (hhmac : browser.hmac = rt.hmac) (hP : grp.P.Prime)
    (hwire : ∀ frame : Frame, frame.IsHandshake →
      parseMessage rt (.text (packetText frame)) = .ok frame)
    {page : Page} (hgate : page.AtGate connection) (hpassword : page.password ≠ "")
    (hA : grp.InRange (publicElement grp a)) :
    Authenticates browser grp packetText connection rt page a b := by
  have : Fact grp.P.Prime := ⟨hP⟩
  have hbytes : utf8Encode page.password ≠ [] := by
    intro hnil
    have hdecoded := utf8Decode_utf8Encode page.password
    rw [hnil] at hdecoded
    exact hpassword (Option.some.inj hdecoded).symm
  have hencode := encode_of_some henc page.password
  have hauthenticate : page.authenticate browser grp a =
      { page with state := .authenticating, error := "" }.spawn
        (.computing (some connection) (Ui.runCovenant grp rt.hmac a (utf8Encode page.password))) := by
    rw [Page.authenticate, if_neg hpassword]
    simp only [hencode, hhmac, hgate.ws]
  rw [Authenticates, hauthenticate]
  generalize utf8Encode page.password = pwBytes at hbytes
  have hunmask : unmask grp (grp.reduce (reading (elementHex grp
      (mask grp (publicElement grp b) (secretToElement grp rt.hmac pwBytes)))))
      (secretToElement grp rt.hmac pwBytes) = .ok (publicElement grp b) := by
    have hreduce : ∀ x : grp.Element, grp.reduce x.val = x := fun x => Fin.ext (Nat.mod_eq_of_lt x.isLt)
    rw [reading_elementHex, hreduce]
    exact unmask_mask (publicElement grp b) (secretToElement_ne_zero grp rt.hmac pwBytes)
  have hcommit : bytesFromHex (hexString (commitDigest grp (publicElement grp a))).toList =
      some (commitDigest grp (publicElement grp a)) := by
    rw [toList_hexString, bytesFromHex_hexChars]
  have hsecret : sharedSecret grp (publicElement grp b) a = sharedSecret grp (publicElement grp a) b :=
    sharedSecret_comm grp a b
  -- The digest of the public element is there, and the commitment travels to the node.
  let page0 : Page :=
    { page with state := .authenticating, error := "" }.spawn
      (.computing (some connection) (Ui.runCovenant grp rt.hmac a pwBytes))
  have hat0 : page0.At connection []
      [.computing (some connection) (Ui.runCovenant grp rt.hmac a pwBytes)] := by
    constructor
    · exact hgate.ws
    · exact hgate.opened
    · exact hgate.inbox
    · exact hgate.waiters
    · exact congrArg (· ++ _) hgate.jobs
  apply Login.inevitable_advance hat0 (.inr ⟨⟨_, recvFrame_bind _⟩, Nat.le_refl _⟩)
  obtain ⟨next, page1, hnext, hpage1, hat1, hsent1⟩ := hat0.clear.exchange
    (.covenantCommit (hexString (commitDigest grp (publicElement grp a))))
    (covenantOnChallenge grp rt.hmac a pwBytes)
  rw [Page.settle, runCovenant_start, hpage1]
  apply Login.inevitable_serverRecv hat1 hsent1 (hwire _ trivial)
  rw [serverOnCommit_ok hcommit (length_commitDigest grp _), serverChallenges]
  -- The challenge travels to the page.
  apply Login.inevitable_serverSend hat1
  apply Login.inevitable_deliver hat1 (.inr ⟨⟨_, recvFrame_bind _⟩, (congrArg List.length hsent1).le⟩)
  intro page2 hat2 hsent2
  rw [Page.settle, hnext, covenantOnChallenge_ok rt grp hbytes a hunmask, pageConfirms]
  -- The confirmation travels to the node.
  obtain ⟨next', page3, hnext', hpage3, hat3, hsent3⟩ := hat2.exchange
    (.covenantConfirm (elementHex grp (publicElement grp a))
      (hexString (confirmMac grp rt.hmac (sharedSecret grp (publicElement grp b) a)
        (commitDigest grp (publicElement grp a)) clientRole (publicElement grp a))))
    fun verdict => Program.lift (covenantOnResult grp rt.hmac
      (sharedSecret grp (publicElement grp b) a).val (commitDigest grp (publicElement grp a))
      (publicElement grp b).val verdict)
  rw [hpage3]
  rw [hsent2, hsent1] at hsent3
  apply Login.inevitable_serverRecv hat3 hsent3 (hwire _ trivial)
  rw [hsecret, ← expectedConfirm, serverOnConfirm_ok (parseElement_elementHex hA) rfl]
  -- The verdict travels to the page.
  apply Login.inevitable_serverSend hat3
  apply Login.inevitable_deliver hat3 (.inl ⟨_, rfl⟩)
  intro page4 hat4 _
  rw [Page.settle, hnext', covenantOnResult_eq, if_pos, Program.lift_ok]
  · exact .here (loggedIn_of_keys hat4 (by rw [keysOf, hsecret]; rfl) [] _)
  · rw [expectedFrame, hsecret]

end Completes

/-! ### The page as it is -/

/-- Against an honest node, for every password and all exponents, `authenticate` never comes to an end with
the page authenticated. The page reports that the secret is wrong, and has sent nothing. -/
theorem authenticate_fails {browser : Browser} (henc : browser.globals.lookup "enc" = none)
    (rt : Runtime) (grp : ModpGroup) (packetText : Frame → String) {connection : Nat} {page : Page}
    (hgate : page.AtGate connection) (hpassword : page.password ≠ "") (a b : Nat) :
    ¬ Authenticates browser grp packetText connection rt page a b ∧
      (page.authenticate browser grp a).state = .error ∧
      (page.authenticate browser grp a).error = "Authentication failed. Check the secret." ∧
      (page.authenticate browser grp a).sent = page.sent := by
  rw [authenticate_eq_refused henc hpassword]
  exact ⟨not_authenticates henc rt hgate.toAt hpassword a b, rfl, rfl, rfl⟩

/-- A page at the gate, with the password typed. -/
theorem exists_atGate : ∃ page : Page,
    (Page.loaded 7).runEvents sampleBrowser Ui.group
      [.init true, .open 0 "2024-01-01T00:00:00.000Z", .frame 0 (.helloAck "active" "Node" true),
        .advance 0, .typePassword "pw"] = some page ∧
    page.AtGate 0 ∧ page.password = "pw" := by
  refine ⟨_, rfl, ?_, rfl⟩
  constructor
  · exact ⟨rfl, rfl, rfl, rfl, rfl⟩
  · exact ⟨_, List.mem_cons_self, rfl⟩
  · rfl

theorem authenticate_fails_pw : ∃ page : Page, page.AtGate 0 ∧ page.password = "pw" ∧
    ¬ Authenticates sampleBrowser Ui.group (dumps (sampleRuntime hmacSha256)) 0
      (sampleRuntime hmacSha256) page 1 1 := by
  have henc : sampleBrowser.globals.lookup "enc" = none := rfl
  obtain ⟨page, _, hgate, hpassword⟩ := exists_atGate
  have hnonempty : page.password ≠ "" := by
    rw [hpassword]
    decide
  obtain ⟨hfails, _⟩ := authenticate_fails henc (sampleRuntime hmacSha256) Ui.group
    (dumps (sampleRuntime hmacSha256)) hgate hnonempty 1 1
  exact ⟨page, hgate, hpassword, hfails⟩

/-- The password `pw` on both sides, and the exponents 1 and 1. -/
theorem honest_login_fails :
    ¬ ∀ (page : Page) (a b : Nat), page.AtGate 0 → page.password ≠ "" →
      IsExponent Ui.group a → IsExponent Ui.group b → Ui.group.InRange (publicElement Ui.group a) →
      Ui.group.InRange (mask Ui.group (publicElement Ui.group b)
        (secretToElement Ui.group hmacSha256 (utf8Encode page.password))) →
      Authenticates sampleBrowser Ui.group (dumps (sampleRuntime hmacSha256)) 0
        (sampleRuntime hmacSha256) page a b := by
  intro h
  obtain ⟨page, _, hgate, hpassword⟩ := exists_atGate
  have hnonempty : page.password ≠ "" := by
    rw [hpassword]
    decide
  have hexponent : IsExponent Ui.group 1 := by decide +kernel
  have hA : Ui.group.InRange (publicElement Ui.group 1) := by decide +kernel
  have hM : Ui.group.InRange (mask Ui.group (publicElement Ui.group 1)
      (secretToElement Ui.group hmacSha256 (utf8Encode page.password))) := by
    rw [hpassword]
    decide +kernel
  exact not_authenticates rfl _ hgate.toAt hnonempty 1 1 (h page 1 1 hgate hnonempty hexponent hexponent hA hM)

end Priestly
