/-
Module: Priestly.Proofs.PageLoop
Layer: Proofs
Purpose: A page that is ready, seen from its connection. However its calls take turns, `receiveLoop` makes of
  the frames that arrive what it would make of them one after the other, and what the page writes is what its
  user has typed.
Imports: Priestly.Proofs.Direction, Priestly.Ui.Visit
Trusted boundary: HMAC keys are not empty
Main exports: Ui.hear, Ui.Stage, Ui.Talk, Ui.Talk.arrive, Ui.Talk.own
-/
import Priestly.Proofs.Direction
import Priestly.Ui.Visit

namespace Priestly

namespace Ui

open ByteCodec Interaction Js

/-! ### Jobs of one kind -/

/-- A job of the kind leaves the list. -/
theorem filter_split {kind : Job → Bool} {jobs : List Job} {position : Nat} {job : Job}
    (hget : jobs[position]? = some job) (hjob : kind job = true) :
    jobs.filter kind = (jobs.take position).filter kind ++ job :: (jobs.drop (position + 1)).filter kind ∧
      (jobs.eraseIdx position).filter kind =
        (jobs.take position).filter kind ++ (jobs.drop (position + 1)).filter kind := by
  obtain ⟨hlt, hget⟩ := List.getElem?_eq_some_iff.mp hget
  have hsplit : jobs = jobs.take position ++ job :: jobs.drop (position + 1) := by
    rw [← hget, List.cons_getElem_drop_succ, List.take_append_drop]
  constructor
  · nth_rewrite 1 [hsplit]
    rw [List.filter_append, List.filter_cons, hjob]
    rfl
  · rw [List.eraseIdx_eq_take_drop_succ, List.filter_append]

/-- The only job of the kind leaves the list. -/
theorem filter_only {kind : Job → Bool} {jobs : List Job} {position : Nat} {job only : Job}
    (honly : jobs.filter kind = [only]) (hget : jobs[position]? = some job) (hjob : kind job = true) :
    job = only ∧ (jobs.eraseIdx position).filter kind = [] := by
  obtain ⟨hsplit, herase⟩ := filter_split hget hjob
  rw [honly] at hsplit
  rcases List.append_eq_singleton_iff.mp hsplit.symm with ⟨hbefore, hafter⟩ | ⟨_, hnone⟩
  · obtain ⟨hjob, hafter⟩ := List.cons.inj hafter
    rw [hbefore, hafter] at herase
    exact ⟨hjob, herase⟩
  · cases hnone

/-- The first job of the kind leaves the list. -/
theorem filter_first {kind : Job → Bool} {jobs : List Job} {position : Nat} {job : Job}
    (hget : jobs[position]? = some job) (hjob : kind job = true)
    (hfirst : ∀ other ∈ jobs.take position, kind other = false) :
    jobs.filter kind = job :: (jobs.eraseIdx position).filter kind := by
  have hnone : (jobs.take position).filter kind = [] := by
    apply List.filter_eq_nil_iff.mpr
    intro other hother
    exact Bool.eq_false_iff.mp (hfirst other hother)
  obtain ⟨hsplit, herase⟩ := filter_split hget hjob
  rw [hsplit, herase, hnone]
  rfl

/-! ### Reading in turn -/

/-- What `receiveLoop` makes of one frame: the text and the sender that it adds to the timeline, if it does, and
the last number accepted. -/
def hear (browser : Browser) (keys : Option Keys) (rxSeq : Int) :
    Frame → Option (Option Json × Option Json) × Int
  | .chat text sender => (some (some (.string text), some (.string sender)), rxSeq)
  | .sealed frame =>
      match openWith browser keys rxSeq (Ui.received frame) with
      | .error _ => (none, rxSeq)
      | .ok obj => ((destructure obj).toOption, (Ui.received frame).seq)
  | _ => (none, rxSeq)

namespace Page

/-- The text and the sender of what the timeline shows as incoming. -/
def incoming (page : Page) : List (Option Json × Option Json) :=
  (page.messages.filter (·.direction = "incoming")).map fun entry => (entry.text, entry.sender)

/-- The text of what the timeline shows as outgoing. -/
def outgoing (page : Page) : List (Option Json) :=
  (page.messages.filter (·.direction = "outgoing")).map Entry.text

end Page

/-- The call of `receiveLoop` for a connection. -/
def loop (c : Nat) : Consumer := { connection := some c, resume := .receiveLoop }

/-- Where the one call of `receiveLoop` stands, and the frames that have arrived and that it has not done with:
it waits, or it has been given the oldest frame, or it opens it. -/
inductive Stage (browser : Browser) (c : Nat) (page : Page) : List Frame → Prop where
  | waiting (waiters : page.mail.waiters = [loop c]) (inbox : page.mail.inbox = [])
      (jobs : page.jobs.filter Job.receives = []) : Stage browser c page []
  | handed {frame : Frame} {rest : List Frame} (waiters : page.mail.waiters = [])
      (inbox : page.mail.inbox.map Arrival.frame = rest)
      (jobs : page.jobs.filter Job.receives = [.resumed (loop c) frame]) : Stage browser c page (frame :: rest)
  | opening {frame : SealedFrame} {rest : List Frame} (waiters : page.mail.waiters = [])
      (inbox : page.mail.inbox.map Arrival.frame = rest)
      (jobs : page.jobs.filter Job.receives =
        [.opening (some c) (Ui.received frame).seq
          (openWith browser page.keys page.rxSeq (Ui.received frame))]) :
      Stage browser c page (.sealed frame :: rest)

section Stage

variable {browser : Browser} {c : Nat} {page page' : Page} {unread : List Frame}

/-- Only the mailbox, the steps of `receiveLoop` and what it opens frames with matter. -/
theorem Stage.of_same (h : Stage browser c page unread) (hmail : page'.mail = page.mail)
    (hjobs : page'.jobs.filter Job.receives = page.jobs.filter Job.receives) (hkeys : page'.keys = page.keys)
    (hrxSeq : page'.rxSeq = page.rxSeq) : Stage browser c page' unread := by
  cases h with
  | waiting waiters inbox jobs =>
      apply Stage.waiting
      · rw [hmail]
        exact waiters
      · rw [hmail]
        exact inbox
      · rw [hjobs]
        exact jobs
  | handed waiters inbox jobs =>
      apply Stage.handed
      · rw [hmail]
        exact waiters
      · rw [hmail]
        exact inbox
      · rw [hjobs]
        exact jobs
  | opening waiters inbox jobs =>
      apply Stage.opening
      · rw [hmail]
        exact waiters
      · rw [hmail]
        exact inbox
      · rw [hjobs, hkeys, hrxSeq]
        exact jobs

/-- `receiveLoop` asks for the next frame. -/
theorem Stage.receiveLoop (hstate : page.state = .ready) (hwaiters : page.mail.waiters = [])
    (hjobs : page.jobs.filter Job.receives = []) :
    Stage browser c (page.receiveLoop (some c)) (page.mail.inbox.map Arrival.frame) := by
  rw [Page.receiveLoop, if_pos hstate, Page.nextFrame, Plumbing.nextFrame_eq]
  rcases page.mail.take_cases (loop c) with
    ⟨arrival, hgiven, hinbox, hwaiters', _⟩ | ⟨hnone, hinbox, hinbox', hwaiters', _⟩
  · rw [hinbox, List.map_cons]
    apply Stage.handed
    · exact hwaiters'.trans hwaiters
    · rfl
    · rw [← loop, hgiven, List.filter_append, hjobs]
      rfl
  · rw [hinbox, List.map_nil]
    apply Stage.waiting
    · rw [hwaiters, List.nil_append] at hwaiters'
      exact hwaiters'
    · exact hinbox'
    · rw [← loop, hnone, List.filter_append, hjobs]
      rfl

/-- A frame arrives. -/
theorem Stage.arrive (h : Stage browser c page unread) (frame : Frame) :
    Stage browser c { page with toPlumbing := page.toPlumbing.onFrame { connection := c, frame } }
      (unread ++ [frame]) := by
  rw [Plumbing.onFrame_eq]
  have hkept : page.mail.waiters = [] → ∃ mail, page.mail.put { connection := c, frame } = (none, mail) ∧
      mail.waiters = [] ∧ mail.inbox = page.mail.inbox ++ [{ connection := c, frame }] := by
    intro hnone
    rcases page.mail.put_cases { connection := c, frame } with
      ⟨waiter, _, hwaiters, _⟩ | ⟨hput, _, hwaiters, hinbox, _⟩
    · rw [hnone] at hwaiters
      cases hwaiters
    · exact ⟨_, Prod.ext hput rfl, hwaiters, hinbox⟩
  cases h with
  | waiting waiters inbox jobs =>
      rcases page.mail.put_cases { connection := c, frame } with
        ⟨waiter, hput, hwaiters, hinbox, _⟩ | ⟨_, hnone, _⟩
      · rw [waiters] at hwaiters
        obtain ⟨rfl, hrest⟩ := List.cons.inj hwaiters
        apply Stage.handed
        · exact hrest.symm
        · rw [hinbox, inbox]
          rfl
        · rw [hput, List.filter_append, jobs]
          rfl
      · rw [waiters] at hnone
        cases hnone
  | handed waiters inbox jobs =>
      obtain ⟨mail, hput, hwaiters, hinbox⟩ := hkept waiters
      simp only [hput, Option.map_none, Option.toList_none, List.append_nil, List.cons_append]
      apply Stage.handed
      · exact hwaiters
      · rw [hinbox, List.map_append, inbox]
        rfl
      · exact jobs
  | opening waiters inbox jobs =>
      obtain ⟨mail, hput, hwaiters, hinbox⟩ := hkept waiters
      simp only [hput, Option.map_none, Option.toList_none, List.append_nil, List.cons_append]
      apply Stage.opening
      · exact hwaiters
      · rw [hinbox, List.map_append, inbox]
        rfl
      · exact jobs

/-- What a step of `receiveLoop` comes to: the oldest frame is opened before it is done with, or it is done
with. -/
inductive Reading (browser : Browser) (c : Nat) (page page' : Page) (unread : List Frame) : Prop where
  | opens (stage : Stage browser c page' unread) (incoming : page'.incoming = page.incoming)
      (rxSeq : page'.rxSeq = page.rxSeq)
  | reads {frame : Frame} {rest : List Frame} (oldest : unread = frame :: rest)
      (stage : Stage browser c page' rest)
      (incoming : page'.incoming = page.incoming ++ (hear browser page.keys page.rxSeq frame).1.toList)
      (rxSeq : page'.rxSeq = (hear browser page.keys page.rxSeq frame).2)

theorem incoming_receiveLoop (page : Page) (connection : Option Nat) :
    (page.receiveLoop connection).incoming = page.incoming ∧
      (page.receiveLoop connection).outgoing = page.outgoing ∧
      (page.receiveLoop connection).rxSeq = page.rxSeq := by
  rw [Page.receiveLoop]
  split
  · exact ⟨rfl, rfl, rfl⟩
  · exact ⟨rfl, rfl, rfl⟩

/-- The entry of a message from others is an incoming one. -/
theorem incoming_addMessage (page : Page) (text sender : Option Json) :
    (page.addMessage text sender "incoming").incoming = page.incoming ++ [(text, sender)] ∧
      (page.addMessage text sender "incoming").outgoing = page.outgoing := by
  constructor
  · rw [Page.incoming, Page.addMessage, List.filter_append, List.map_append]
    rfl
  · rw [Page.outgoing, Page.addMessage, List.filter_append]
    exact congrArg _ (List.append_nil _)

/-- `receiveLoop` comes back to its head with the oldest frame done with. -/
theorem Reading.back {done : Page} {frame : Frame} {rest : List Frame}
    {added : Option (Option Json × Option Json)} (hstate : done.state = .ready)
    (hwaiters : done.mail.waiters = []) (hinbox : done.mail.inbox.map Arrival.frame = rest)
    (hjobs : done.jobs.filter Job.receives = [])
    (hhear : hear browser page.keys page.rxSeq frame = (added, done.rxSeq))
    (hincoming : done.incoming = page.incoming ++ added.toList) :
    Reading browser c page (done.receiveLoop (some c)) (frame :: rest) := by
  subst hinbox
  obtain ⟨hsame, _, hrxSeq⟩ := incoming_receiveLoop done (some c)
  refine .reads rfl (Stage.receiveLoop hstate hwaiters hjobs) ?_ ?_
  · rw [hhear]
    exact hsame.trans hincoming
  · rw [hhear]
    exact hrxSeq

/-- A step of `receiveLoop` goes on. -/
theorem Stage.settle (h : Stage browser c page unread) (hstate : page.state = .ready) {position : Nat}
    {job : Job} (hget : page.jobs[position]? = some job) (hreceives : job.receives = true)
    (hpage' : page' = Page.settle browser job { page with jobs := page.jobs.eraseIdx position }) :
    Reading browser c page page' unread ∧ page'.outgoing = page.outgoing := by
  cases h with
  | waiting waiters inbox jobs =>
      have hmem : job ∈ page.jobs.filter Job.receives :=
        List.mem_filter.mpr ⟨List.mem_of_getElem? hget, hreceives⟩
      rw [jobs] at hmem
      cases hmem
  | @handed frame rest waiters inbox jobs =>
      obtain ⟨rfl, hnone⟩ := filter_only jobs hget hreceives
      -- a frame that adds nothing to the timeline
      have hsilent : ∀ error, hear browser page.keys page.rxSeq frame = (none, page.rxSeq) →
          page' = Page.receiveLoop (some c) { page with jobs := page.jobs.eraseIdx position, error } →
          Reading browser c page page' (frame :: rest) ∧ page'.outgoing = page.outgoing := by
        rintro error hhear rfl
        refine ⟨.back ?_ waiters inbox hnone hhear (List.append_nil _).symm, (incoming_receiveLoop _ _).2.1⟩
        exact hstate
      cases frame with
      | chat text sender =>
          rw [hpage']
          obtain ⟨hadded, hkept⟩ := incoming_addMessage { page with jobs := page.jobs.eraseIdx position }
            (some (.string text)) (some (.string sender))
          refine ⟨.back ?_ waiters inbox hnone rfl hadded, (incoming_receiveLoop _ _).2.1.trans hkept⟩
          exact hstate
      | «sealed» frame =>
          rw [hpage']
          refine ⟨.opens (.opening waiters inbox ?_) rfl rfl, rfl⟩
          have hspawned : (page.jobs.eraseIdx position ++ [Job.opening (some c) (Ui.received frame).seq
              (openWith browser page.keys page.rxSeq (Ui.received frame))]).filter Job.receives =
              [.opening (some c) (Ui.received frame).seq
                (openWith browser page.keys page.rxSeq (Ui.received frame))] := by
            rw [List.filter_append, hnone]
            rfl
          exact hspawned
      | error code reason => exact hsilent _ rfl hpage'
      | _ => exact hsilent page.error rfl hpage'
  | @opening frame rest waiters inbox jobs =>
      obtain ⟨rfl, hnone⟩ := filter_only jobs hget hreceives
      rw [Page.settle] at hpage'
      cases hopen : openWith browser page.keys page.rxSeq (Ui.received frame) with
      | error error =>
          have hhear : hear browser page.keys page.rxSeq (.sealed frame) = (none, page.rxSeq) := by
            rw [hear, hopen]
          rw [hopen] at hpage'
          rw [hpage']
          refine ⟨.back ?_ waiters inbox hnone hhear (List.append_nil _).symm, (incoming_receiveLoop _ _).2.1⟩
          exact hstate
      | ok obj =>
          have hhear : hear browser page.keys page.rxSeq (.sealed frame) =
              ((destructure obj).toOption, (Ui.received frame).seq) := by
            rw [hear, hopen]
          rw [hopen, Page.opened] at hpage'
          cases hfields : destructure obj with
          | error error =>
              simp only [hfields] at hpage'
              rw [hfields] at hhear
              rw [hpage']
              refine ⟨.back ?_ waiters inbox hnone hhear (List.append_nil _).symm,
                (incoming_receiveLoop _ _).2.1⟩
              exact hstate
          | ok fields =>
              obtain ⟨text, sender⟩ := fields
              simp only [hfields] at hpage'
              rw [hfields] at hhear
              rw [hpage']
              obtain ⟨hadded, hkept⟩ := incoming_addMessage
                { page with jobs := page.jobs.eraseIdx position, rxSeq := (Ui.received frame).seq } text sender
              refine ⟨.back ?_ waiters inbox hnone hhear hadded, (incoming_receiveLoop _ _).2.1.trans hkept⟩
              exact hstate

/-- The only call that waits is `receiveLoop`. -/
theorem Stage.waiter (h : Stage browser c page unread) {consumer : Consumer}
    (hwaits : consumer ∈ page.mail.waiters) : consumer = loop c := by
  cases h with
  | waiting waiters inbox jobs =>
      rw [waiters] at hwaits
      exact List.mem_singleton.mp hwaits
  | handed waiters inbox jobs =>
      rw [waiters] at hwaits
      cases hwaits
  | opening waiters inbox jobs =>
      rw [waiters] at hwaits
      cases hwaits

end Stage

/-! ### The jobs of a page that is ready -/

section Jobs

variable {browser : Browser} {c : Nat} {page : Page}

/-- Every job is a call of `send` or a step of `receiveLoop`. -/
def Busy (page : Plumbing) : Prop := ∀ job ∈ page.jobs, job.isSealing = true ∨ job.receives = true

theorem busy_append {jobs : List Job} (h : Busy page.toPlumbing)
    (hnew : ∀ job ∈ jobs, job.isSealing = true ∨ job.receives = true) (mail : Mailbox Arrival Consumer) :
    Busy { page.toPlumbing with mail, jobs := page.jobs ++ jobs } := by
  intro job hjob
  rcases List.mem_append.mp hjob with hold | hadded
  · exact h job hold
  · exact hnew job hadded

theorem busy_eraseIdx (h : Busy page.toPlumbing) (position : Nat) :
    Busy { page.toPlumbing with jobs := page.jobs.eraseIdx position } :=
  fun job hjob => h job (List.mem_of_mem_eraseIdx hjob)

theorem busy_receiveLoop (page : Page) (h : Busy page.toPlumbing) (connection : Option Nat) :
    Busy (page.receiveLoop connection).toPlumbing := by
  rw [Page.receiveLoop]
  split
  · rw [Page.nextFrame, Plumbing.nextFrame_eq]
    apply busy_append h
    intro job hjob
    right
    cases hgiven : (page.mail.take { connection, resume := .receiveLoop }).1 with
    | none =>
        rw [hgiven] at hjob
        cases hjob
    | some arrival =>
        rw [hgiven] at hjob
        rw [List.mem_singleton.mp hjob]
        rfl
  · exact h

theorem busy_arrive {unread : List Frame} (h : Busy page.toPlumbing) (hstage : Stage browser c page unread)
    (arrival : Arrival) : Busy (page.toPlumbing.onFrame arrival) := by
  rw [Plumbing.onFrame_eq]
  apply busy_append h
  intro job hjob
  right
  rcases page.mail.put_cases arrival with ⟨waiter, hput, hwaiters, _⟩ | ⟨hput, _⟩
  · have hloop : waiter = loop c := hstage.waiter (by rw [hwaiters]; exact List.mem_cons_self)
    rw [hput, hloop] at hjob
    rw [List.mem_singleton.mp hjob]
    rfl
  · rw [hput] at hjob
    cases hjob

theorem busy_settle (h : Busy page.toPlumbing) {job : Job} (hreceives : job.receives = true) :
    Busy (Page.settle browser job page).toPlumbing := by
  cases job with
  | resumed consumer frame =>
      obtain ⟨reader, resume⟩ := consumer
      cases resume with
      | receiveLoop =>
          cases frame with
          | chat text sender =>
              apply busy_receiveLoop
              exact h
          | «sealed» frame =>
              apply busy_append h
              intro job hjob
              rw [List.mem_singleton.mp hjob]
              exact .inr rfl
          | error code reason =>
              apply busy_receiveLoop
              exact h
          | _ =>
              apply busy_receiveLoop
              exact h
      | _ => cases hreceives
  | opening reader seq result =>
      cases result with
      | error error =>
          apply busy_receiveLoop
          exact h
      | ok obj =>
          rw [Page.settle, Page.opened]
          split
          · apply busy_receiveLoop
            exact h
          · apply busy_receiveLoop
            exact h
  | _ => cases hreceives

end Jobs

/-! ### A page that is ready -/

/-- What the page seals for a message. -/
def pageEncoding (js : JsonCodec) (message : String × String) : Bytes :=
  utf8Encode (js.stringify (.object [("text", .string message.1), ("sender", .string message.2)]))

/-- The session of `cli/` that seals and opens as the page does. -/
def Page.session (keys : SessionKeys) (page : Page) : SessionState :=
  { SessionState.new keys true false with txSeq := page.txSeq, rxSeq := page.rxSeq }

/-- The messages of the page and their frames: those it has written, and those of the calls that await a tag. -/
def letters (wrote : List (String × Frame)) (pending : List (String × SealedFrame)) : List Letter :=
  wrote.map (fun entry => ((entry.1, "browser"), entry.2)) ++
    pending.map fun entry => ((entry.1, "browser"), .sealed entry.2)

/-- What holds of a page that has been used since `start`, if these frames have arrived that `receiveLoop` has
not done with, the user's messages were written in these frames, and these calls of `send` await their tags. -/
structure Talk (browser : Browser) (keys : Option SessionKeys) (c : Nat) (start page : Page)
    (unread : List Frame) (wrote : List (String × Frame)) (pending : List (String × SealedFrame)) : Prop where
  state : page.state = .ready
  holds : page.keys = keys.map SessionKeys.page
  ws : page.ws = some c
  opened : page.sockets[c]? = some .opened
  counter : 0 ≤ page.txSeq
  busy : Busy page.toPlumbing
  stage : Stage browser c page unread
  sent : page.sentOn c = start.sentOn c ++ wrote.map Prod.snd
  outgoing : page.outgoing = start.outgoing ++ wrote.map fun entry => some (.string entry.1)
  sealing : page.jobs.filter Job.isSealing = pending.map fun entry => .sealing entry.1 (.ok entry.2)
  clear : keys = none → pending = []

/-- The frame that a call of `send` makes. -/
inductive Makes (browser : Browser) : Option SessionKeys → Page → Page → String → Frame → Prop where
  | plain {page page' : Page} {text : String} (txSeq : page'.txSeq = page.txSeq) :
      Makes browser none page page' text (.chat text "browser")
  | secured {keys : SessionKeys} {page page' : Page} {text : String} {frame : SealedFrame}
      (makes :
        ((page.session keys).seal browser.hmac (pageEncoding browser.json (text, "browser"))).1 = .ok frame)
      (txSeq : page'.txSeq = page.txSeq + 1) : Makes browser (some keys) page page' text (.sealed frame)

/-- What an event on the page comes to, as its connection sees it: nothing, or the oldest frame is done with, or
the user says something. -/
inductive Move (browser : Browser) (keys : Option SessionKeys) (page page' : Page) (unread unread' : List Frame)
    (said said' : List Letter) : Prop where
  | idle (unread : unread' = unread) (said : said' = said) (incoming : page'.incoming = page.incoming)
      (rxSeq : page'.rxSeq = page.rxSeq) (txSeq : page'.txSeq = page.txSeq)
  | reads {frame : Frame} (oldest : unread = frame :: unread') (said : said' = said)
      (incoming : page'.incoming = page.incoming ++ (hear browser page.keys page.rxSeq frame).1.toList)
      (rxSeq : page'.rxSeq = (hear browser page.keys page.rxSeq frame).2) (txSeq : page'.txSeq = page.txSeq)
  | speaks {text : String} {frame : Frame} (unread : unread' = unread)
      (said : said' = said ++ [((text, "browser"), frame)]) (incoming : page'.incoming = page.incoming)
      (rxSeq : page'.rxSeq = page.rxSeq) (makes : Makes browser keys page page' text frame)

section Talk

variable {browser : Browser} {keys : Option SessionKeys} {c : Nat} {start page page' : Page}
  {unread unread' : List Frame} {wrote : List (String × Frame)} {pending : List (String × SealedFrame)}

/-- The page writes nothing, and nobody calls `send`. -/
theorem Talk.of_same (h : Talk browser keys c start page unread wrote pending)
    (hstate : page'.state = page.state) (hkeys : page'.keys = page.keys) (hws : page'.ws = page.ws)
    (hsockets : page'.sockets = page.sockets) (htxSeq : page'.txSeq = page.txSeq)
    (hsent : page'.sent = page.sent) (houtgoing : page'.outgoing = page.outgoing)
    (hsealing : page'.jobs.filter Job.isSealing = page.jobs.filter Job.isSealing)
    (hbusy : Busy page'.toPlumbing) (hstage : Stage browser c page' unread') :
    Talk browser keys c start page' unread' wrote pending := by
  constructor
  · exact hstate.trans h.state
  · exact hkeys.trans h.holds
  · exact hws.trans h.ws
  · rw [hsockets]
    exact h.opened
  · rw [htxSeq]
    exact h.counter
  · exact hbusy
  · exact hstage
  · rw [Plumbing.sentOn, hsent]
    exact h.sent
  · exact houtgoing.trans h.outgoing
  · exact hsealing.trans h.sealing
  · exact h.clear

/-- A frame arrives. -/
theorem Talk.arrive (h : Talk browser keys c start page unread wrote pending) (frame : Frame) :
    Talk browser keys c start { page with toPlumbing := page.toPlumbing.onFrame { connection := c, frame } }
      (unread ++ [frame]) wrote pending := by
  have hsame : Page.Undisturbed [{ connection := c, frame }] page
      { page with toPlumbing := page.toPlumbing.onFrame { connection := c, frame } } :=
    Page.undisturbed_onFrame { connection := c, frame }
  exact h.of_same hsame.state hsame.keys hsame.ws hsame.sockets hsame.txSeq hsame.sent rfl hsame.sealing
    (busy_arrive h.busy h.stage _) (h.stage.arrive frame)

/-- The entry of a message of the user is an outgoing one. -/
theorem incoming_sendDone (page : Page) (text : String) :
    (page.sendDone text).incoming = page.incoming ∧
      (page.sendDone text).outgoing = page.outgoing ++ [some (.string text)] := by
  constructor
  · rw [Page.incoming, Page.sendDone, Page.addMessage, List.filter_append]
    exact congrArg (List.map _) (List.append_nil _)
  · rw [Page.outgoing, Page.sendDone, Page.addMessage, List.filter_append, List.map_append]
    rfl

/-- A message of the user is written, and its entry appears. -/
theorem Talk.write (h : Talk browser keys c start page unread wrote pending) (text : String) (frame : Frame)
    (jobs : List Job) {pending' : List (String × SealedFrame)} (hbusy : Busy { page.toPlumbing with jobs })
    (hreceives : jobs.filter Job.receives = page.jobs.filter Job.receives)
    (hsealing : jobs.filter Job.isSealing = pending'.map fun entry => .sealing entry.1 (.ok entry.2))
    (hclear : keys = none → pending' = [])
    (hpage' : page' = (Page.sendFrame frame { page with jobs }).sendDone text) :
    Talk browser keys c start page' unread (wrote ++ [(text, frame)]) pending' ∧
      page'.incoming = page.incoming ∧ page'.rxSeq = page.rxSeq ∧ page'.txSeq = page.txSeq := by
  have hsend : Plumbing.sendFrame frame { page.toPlumbing with jobs } =
      { page.toPlumbing with jobs, sent := page.sent ++ [(c, frame)] } := by
    rw [Plumbing.sendFrame]
    simp only [h.ws, h.opened, if_true]
  have hwritten : page' = Page.sendDone text
      { page with jobs, sent := page.sent ++ [(c, frame)] } := by
    rw [hpage', Page.sendFrame, hsend]
  obtain ⟨hincoming, houtgoing⟩ := incoming_sendDone { page with jobs, sent := page.sent ++ [(c, frame)] } text
  rw [hwritten]
  refine ⟨?_, hincoming, rfl, rfl⟩
  constructor
  · exact h.state
  · exact h.holds
  · exact h.ws
  · exact h.opened
  · exact h.counter
  · exact hbusy
  · exact h.stage.of_same rfl hreceives rfl rfl
  · have hsent : Plumbing.sentOn c { page.toPlumbing with jobs, sent := page.sent ++ [(c, frame)] } =
        page.sentOn c ++ [frame] := by
      rw [Plumbing.sentOn, Plumbing.sentOn, List.filter_append, List.map_append]
      simp
    rw [List.map_append, ← List.append_assoc, ← h.sent]
    exact hsent
  · rw [List.map_append, ← List.append_assoc, ← h.outgoing]
    exact houtgoing
  · exact hsealing
  · exact hclear

/-- What the page seals under the next number is what its session seals. -/
theorem exists_sealed (browser : Browser) (page : Page) {k : SessionKeys} (hkey : k.clientMac ≠ [])
    (h : 0 ≤ page.txSeq ∧ page.txSeq < 2 ^ 53) (text : String) :
    ∃ frame, toNumber (page.txSeq + 1) = page.txSeq + 1 ∧
      Ui.seal browser.json browser.hmac k.page (toNumber (page.txSeq + 1))
        (.object [("text", .string text), ("sender", .string "browser")]) = .ok frame ∧
      ((page.session k).seal browser.hmac (pageEncoding browser.json (text, "browser"))).1 = .ok frame := by
  have hmoves : toNumber (page.txSeq + 1) = page.txSeq + 1 := by
    rcases toNumber_succ ⟨h.1, h.2.le⟩ with ⟨hmoves, _⟩ | ⟨_, hlast⟩
    · exact hmoves
    · exact absurd h.2 (by rw [hlast]; exact lt_irrefl _)
  have hwide : 0 ≤ page.txSeq + 1 ∧ page.txSeq + 1 < 2 ^ 64 := by omega
  have hpageKey : k.page.clientMac ≠ [] := hkey
  obtain ⟨frame, hframe, hnumber, hseals⟩ := seal_seals browser.json browser.hmac hpageKey
    (rfl : (page.session k).compress = false) rfl rfl rfl hwide
    (.object [("text", .string text), ("sender", .string "browser")])
  refine ⟨frame, hmoves, ?_, ?_⟩
  · rw [hmoves]
    exact hframe
  · rw [SessionState.Seals, hnumber] at hseals
    exact hseals

/-- A page without keys writes what it sends in the clear. -/
theorem Page.send_plain (browser : Browser) (page : Page) {text : String} (htext : trim page.draft = text)
    (hdraft : text ≠ "") (hstate : page.state = .ready) (hkeys : page.keys = none) :
    page.send browser = (page.sendFrame (.chat text "browser")).sendDone text := by
  subst htext
  have hopen : ¬(trim page.draft = "" ∨ page.state ≠ .ready) := by
    rw [hstate]
    simpa using hdraft
  rw [Page.send]
  dsimp only
  rw [if_neg hopen, hkeys]

/-- The user sends a message. -/
theorem Talk.send (h : Talk browser keys c start page unread wrote pending)
    (hkey : ∀ k, keys = some k → k.clientMac ≠ []) (hdraft : trim page.draft ≠ "")
    (hturn : page.txSeq < 2 ^ 53) :
    ∃ unread' wrote' pending', wrote <+: wrote' ∧
      Talk browser keys c start (page.send browser) unread' wrote' pending' ∧
      Move browser keys page (page.send browser) unread unread' (letters wrote pending)
        (letters wrote' pending') := by
  cases keys with
  | none =>
      have hsend := page.send_plain browser rfl hdraft h.state h.holds
      obtain rfl := h.clear rfl
      obtain ⟨htalk, hincoming, hrxSeq, htxSeq⟩ := h.write (trim page.draft) (.chat (trim page.draft) "browser")
        page.jobs h.busy rfl h.sealing (fun _ => rfl) hsend
      have hsaid : letters (wrote ++ [(trim page.draft, .chat (trim page.draft) "browser")]) [] =
          letters wrote [] ++ [((trim page.draft, "browser"), .chat (trim page.draft) "browser")] := by
        rw [letters, letters, List.map_append, List.map_nil, List.append_nil, List.append_nil]
        rfl
      exact ⟨unread, _, [], List.prefix_append _ _, htalk, .speaks rfl hsaid hincoming hrxSeq (.plain htxSeq)⟩
  | some k =>
      have hopen : ¬(trim page.draft = "" ∨ page.state ≠ .ready) := by
        rw [h.state]
        simpa using hdraft
      obtain ⟨frame, hmoves, hframe, hseals⟩ :=
        exists_sealed browser page (hkey k rfl) ⟨h.counter, hturn⟩ (trim page.draft)
      have hsend : page.send browser =
          { page with
            txSeq := page.txSeq + 1
            jobs := page.jobs ++ [.sealing (trim page.draft) (.ok frame)] } := by
        rw [Page.send]
        dsimp only
        rw [if_neg hopen, h.holds]
        simp only [Option.map_some, hframe]
        rw [hmoves]
        rfl
      have hcounter := h.counter
      rw [hsend]
      have hsaid : letters wrote (pending ++ [(trim page.draft, frame)]) =
          letters wrote pending ++ [((trim page.draft, "browser"), .sealed frame)] := by
        rw [letters, letters, List.map_append, List.append_assoc]
        rfl
      refine ⟨unread, wrote, pending ++ [(trim page.draft, frame)], List.prefix_rfl, ?_,
        .speaks rfl hsaid rfl rfl (.secured hseals rfl)⟩
      · constructor
        · exact h.state
        · exact h.holds
        · exact h.ws
        · exact h.opened
        · exact Int.le_add_one hcounter
        · apply busy_append h.busy
          intro job hjob
          rw [List.mem_singleton.mp hjob]
          exact .inl rfl
        · have hreceives : (page.jobs ++ [Job.sealing (trim page.draft) (.ok frame)]).filter Job.receives =
              page.jobs.filter Job.receives := by
            rw [List.filter_append]
            exact List.append_nil _
          exact h.stage.of_same rfl hreceives rfl rfl
        · exact h.sent
        · exact h.outgoing
        · have hsealing : (page.jobs ++ [Job.sealing (trim page.draft) (.ok frame)]).filter Job.isSealing =
              (pending ++ [(trim page.draft, frame)]).map fun entry => .sealing entry.1 (.ok entry.2) := by
            rw [List.filter_append, h.sealing, List.map_append]
            rfl
          exact hsealing
        · intro hnone
          cases hnone

/-- The tag of the oldest call of `send` has arrived, and its frame is written. -/
theorem Talk.tagged (h : Talk browser keys c start page unread wrote pending) {position : Nat} {text : String}
    {result : Except JsError SealedFrame} (hget : page.jobs[position]? = some (.sealing text result))
    (hfirst : ∀ job ∈ page.jobs.take position, job.isSealing = false)
    (hpage' : page' =
      Page.settle browser (.sealing text result) { page with jobs := page.jobs.eraseIdx position }) :
    ∃ unread' wrote' pending', wrote <+: wrote' ∧ Talk browser keys c start page' unread' wrote' pending' ∧
      Move browser keys page page' unread unread' (letters wrote pending) (letters wrote' pending') := by
  have hsealing := filter_first hget rfl hfirst
  rw [h.sealing] at hsealing
  cases pending with
  | nil => cases hsealing
  | cons entry rest =>
      obtain ⟨hjob, hrest⟩ := List.cons.inj hsealing
      obtain ⟨rfl, rfl⟩ := Job.sealing.inj hjob
      have hclear : keys = none → rest = [] := by
        intro hnone
        cases h.clear hnone
      obtain ⟨htalk, hincoming, hrxSeq, htxSeq⟩ := h.write entry.1 (.sealed entry.2)
        (page.jobs.eraseIdx position) (busy_eraseIdx h.busy position) (filter_eraseIdx hget rfl) hrest.symm
        hclear hpage'
      refine ⟨unread, _, rest, List.prefix_append _ _, htalk, .idle rfl ?_ hincoming hrxSeq htxSeq⟩
      rw [letters, letters, List.map_append, List.append_assoc]
      rfl

/-- A step of `receiveLoop` goes on. -/
theorem Talk.receive (h : Talk browser keys c start page unread wrote pending) {position : Nat} {job : Job}
    (hget : page.jobs[position]? = some job) (hreceives : job.receives = true)
    (hpage' : page' = Page.settle browser job { page with jobs := page.jobs.eraseIdx position }) :
    ∃ unread' wrote' pending', wrote <+: wrote' ∧ Talk browser keys c start page' unread' wrote' pending' ∧
      Move browser keys page page' unread unread' (letters wrote pending) (letters wrote' pending') := by
  have hjob : job.isSealing = false := by
    cases job with
    | sealing text result => cases hreceives
    | _ => rfl
  have hsame : Page.Undisturbed [] { page with jobs := page.jobs.eraseIdx position } page' := by
    rw [hpage']
    exact Page.undisturbed_settle hreceives
  have hbusy : Busy page'.toPlumbing := by
    rw [hpage']
    apply busy_settle _ hreceives
    exact busy_eraseIdx h.busy position
  obtain ⟨hreading, houtgoing⟩ := h.stage.settle h.state hget hreceives hpage'
  have hkeep : ∀ {rest : List Frame}, Stage browser c page' rest →
      Talk browser keys c start page' rest wrote pending :=
    fun hstage => h.of_same hsame.state hsame.keys hsame.ws hsame.sockets hsame.txSeq hsame.sent houtgoing
      (hsame.sealing.trans (filter_eraseIdx hget hjob)) hbusy hstage
  cases hreading with
  | opens stage incoming rxSeq =>
      exact ⟨unread, wrote, pending, List.prefix_rfl, hkeep stage, .idle rfl rfl incoming rxSeq hsame.txSeq⟩
  | reads oldest stage incoming rxSeq =>
      exact ⟨_, wrote, pending, List.prefix_rfl, hkeep stage, .reads oldest rfl incoming rxSeq hsame.txSeq⟩

/-- What the user does, or a call that goes on, comes to. -/
theorem Talk.own (h : Talk browser keys c start page unread wrote pending)
    (hkey : ∀ k, keys = some k → k.clientMac ≠ []) {grp : ModpGroup} {event : PageEvent} (hown : event.Own)
    (hturn : page.InTurn event) (hnext : page.next browser grp event = some page') :
    ∃ unread' wrote' pending', wrote <+: wrote' ∧ Talk browser keys c start page' unread' wrote' pending' ∧
      Move browser keys page page' unread unread' (letters wrote pending) (letters wrote' pending') := by
  have hidle : ∀ {other : Page}, other.toPlumbing = page.toPlumbing → other.state = page.state →
      other.keys = page.keys → other.txSeq = page.txSeq → other.rxSeq = page.rxSeq →
      other.messages = page.messages → ∃ unread' wrote' pending', wrote <+: wrote' ∧
        Talk browser keys c start other unread' wrote' pending' ∧
        Move browser keys page other unread unread' (letters wrote pending) (letters wrote' pending') := by
    intro other hplumbing hstate hkeys htxSeq hrxSeq hmessages
    have hincoming : other.incoming = page.incoming := by rw [Page.incoming, Page.incoming, hmessages]
    have houtgoing : other.outgoing = page.outgoing := by rw [Page.outgoing, Page.outgoing, hmessages]
    refine ⟨unread, wrote, pending, List.prefix_rfl, h.of_same hstate hkeys ?_ ?_ htxSeq ?_ houtgoing ?_ ?_ ?_,
      .idle rfl rfl hincoming hrxSeq htxSeq⟩
    · rw [hplumbing]
    · rw [hplumbing]
    · rw [hplumbing]
    · rw [hplumbing]
    · rw [hplumbing]
      exact h.busy
    · exact h.stage.of_same (congrArg Plumbing.mail hplumbing)
        (congrArg (fun plumbing => plumbing.jobs.filter Job.receives) hplumbing) hkeys hrxSeq
  cases event with
  | typePassword text =>
      obtain rfl := Option.some.inj hnext
      exact hidle rfl rfl rfl rfl rfl rfl
  | typeDraft text =>
      obtain rfl := Option.some.inj hnext
      exact hidle rfl rfl rfl rfl rfl rfl
  | send =>
      obtain rfl := Option.some.inj hnext
      by_cases hblank : trim page.draft = ""
      · have hsame : page.send browser = page := by
          rw [Page.send]
          exact if_pos (.inl hblank)
        rw [hsame]
        exact hidle rfl rfl rfl rfl rfl rfl
      · exact h.send hkey hblank (hturn.resolve_left hblank)
  | advance position =>
      rw [Page.next] at hnext
      split at hnext
      · rename_i job hget
        obtain rfl := Option.some.inj hnext
        rcases h.busy job (List.mem_of_getElem? hget) with hsealing | hreceives
        · cases job with
          | sealing text result => exact h.tagged hget (hturn text result hget) rfl
          | _ => cases hsealing
        · exact h.receive hget hreceives rfl
      · cases hnext
  | _ => cases hown

end Talk

end Ui

end Priestly
