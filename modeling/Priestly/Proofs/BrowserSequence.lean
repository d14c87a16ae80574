/-
Module: Priestly.Proofs.BrowserSequence
Layer: Proofs
Purpose: The order in which sealed frames leave the page. `send` takes its number before it awaits the tag and
  writes the frame behind the await, so calls that overlap write their frames in the order in which their
  tags arrive. The server accepts them all when each tag that arrives is the one awaited longest, and only
  then.
Imports: Priestly.Lib.EventRuns, Priestly.Lib.Tickets, Priestly.Proofs.BrowserCalls
Trusted boundary: HMAC keys are not empty; the server is handed the frames in the order they were written
Main exports: Page.Conversing, Page.Talks, Page.InTurn, Talking, talking_next, openEach_ok_iff,
  sends_in_sequence_iff, overtaken_send
-/
import Priestly.Lib.EventRuns
import Priestly.Lib.Tickets
import Priestly.Proofs.BrowserCalls

namespace Priestly

open ByteCodec Interaction Js

namespace Ui

/-! ### Calls of `send` -/

/-- The frame that a call of `send` will write. -/
def Job.sealedFrame? : Job → Option SealedFrame
  | .sealing _ (.ok frame) => some frame
  | _ => none

namespace Plumbing

/-- The frames of the calls of `send` that have not written them yet, in the order of the calls. -/
def inFlight (page : Plumbing) : List SealedFrame := page.jobs.filterMap Job.sealedFrame?

/-- The sealed frames written after the first `count` frames. -/
def sealedSince (count : Nat) (page : Plumbing) : List SealedFrame :=
  (page.sent.drop count).filterMap fun entry =>
    match entry.2 with
    | .sealed frame => some frame
    | _ => none

end Plumbing

namespace Page

/-- An authenticated page on an open connection, with the keys of a session. -/
structure Conversing (keys : SessionKeys) (connection : Nat) (page : Page) : Prop where
  authenticated : page.authenticated = true
  state : page.state = .ready
  keys : page.keys = some keys.page
  ws : page.ws = some connection
  opened : page.sockets[connection]? = some .opened
  counter : 0 ≤ page.txSeq ∧ page.txSeq ≤ 2 ^ 53

/-- What happens while such a page is used: the user types and sends, frames arrive, and calls of `send` and
steps of `receiveLoop` go on, in any order. -/
def Talks (page : Page) : PageEvent → Prop
  | .typePassword _ | .typeDraft _ | .send | .frame _ _ => True
  | .advance position => ∀ job, page.jobs[position]? = some job → job.isSealing = true ∨ job.receives = true
  | _ => False

/-- A call of `send` that goes on is the one that has waited longest, and one that is made finds a number that
the counter can still leave behind. -/
def InTurn (page : Page) : PageEvent → Prop
  | .send => trim page.draft = "" ∨ page.txSeq < 2 ^ 53
  | .advance position => ∀ text result, page.jobs[position]? = some (.sealing text result) →
      ∀ job ∈ page.jobs.take position, job.isSealing = false
  | _ => True

end Page

/-! ### The counter -/

/-- The counter is a Number: it moves by one up to 2^53, and stays there. -/
theorem toNumber_succ {n : Int} (h : 0 ≤ n ∧ n ≤ 2 ^ 53) :
    (toNumber (n + 1) = n + 1 ∧ n < 2 ^ 53) ∨ (toNumber (n + 1) = n ∧ n = 2 ^ 53) := by
  rcases lt_trichotomy (n + 1) (2 ^ 53) with hlt | heq | hgt
  · left
    refine ⟨toNumber_of_lt ?_, ?_⟩
    · omega
    · omega
  · left
    rw [heq]
    refine ⟨by decide +kernel, ?_⟩
    omega
  · right
    have hlast : n = 2 ^ 53 := by omega
    rw [hlast]
    exact ⟨by decide +kernel, rfl⟩

/-! ### A page that is used -/

section Talking

variable (rt : Runtime) (derived : SessionKeys) (connection : Nat) (start : Page)

/-- The numbers written since the start, behind the one the counter had then. -/
def handedIn (page : Page) : List Int :=
  start.txSeq :: (page.sealedSince start.sent.length).map SealedFrame.seq

/-- The numbers of the calls of `send` that go on later. -/
def out (page : Page) : List Int := page.inFlight.map SealedFrame.seq

/-- What holds of a page that has been used since `start`. -/
structure Talking (page : Page) : Prop extends page.Conversing derived connection where
  sent : page.sent = start.sent ++
    (page.sealedSince start.sent.length).map fun frame => (connection, .sealed frame)
  written : ∀ frame ∈ page.sealedSince start.sent.length,
    ∃ plaintext, (SessionState.new derived true false).Seals rt.hmac plaintext frame
  pending : ∀ job ∈ page.jobs.filter Job.isSealing, ∃ frame plaintext, job.sealedFrame? = some frame ∧
    (SessionState.new derived true false).Seals rt.hmac plaintext frame
  drawn : Tickets.Drawn (handedIn start page) (out page) page.txSeq

variable {rt derived connection start} {page page' : Page}

theorem inFlight_eq (page : Plumbing) :
    page.inFlight = (page.jobs.filter Job.isSealing).filterMap Job.sealedFrame? := by
  rw [Plumbing.inFlight, List.filterMap_filter]
  apply List.filterMap_congr
  intro job _
  cases job with
  | sealing text result => rfl
  | _ => rfl

/-- Only what `send` uses matters. -/
theorem Talking.of_same (h : Talking rt derived connection start page)
    (hauthenticated : page'.authenticated = page.authenticated) (hstate : page'.state = page.state)
    (hkeys : page'.keys = page.keys) (hws : page'.ws = page.ws) (hsockets : page'.sockets = page.sockets)
    (htxSeq : page'.txSeq = page.txSeq) (hsent : page'.sent = page.sent)
    (hsealing : page'.jobs.filter Job.isSealing = page.jobs.filter Job.isSealing) :
    Talking rt derived connection start page' ∧ handedIn start page' = handedIn start page ∧
      out page' = out page := by
  have hsince : page'.sealedSince start.sent.length = page.sealedSince start.sent.length := by
    rw [Plumbing.sealedSince, Plumbing.sealedSince, hsent]
  have hhandedIn : handedIn start page' = handedIn start page := by
    rw [handedIn, handedIn, hsince]
  have hout : out page' = out page := by
    rw [out, out, inFlight_eq, inFlight_eq, hsealing]
  refine ⟨?_, hhandedIn, hout⟩
  constructor
  · constructor
    · exact hauthenticated.trans h.authenticated
    · exact hstate.trans h.state
    · exact hkeys.trans h.keys
    · exact hws.trans h.ws
    · rw [hsockets]
      exact h.opened
    · rw [htxSeq]
      exact h.counter
  · rw [hsent, hsince]
    exact h.sent
  · rw [hsince]
    exact h.written
  · rw [hsealing]
    exact h.pending
  · rw [hhandedIn, hout, htxSeq]
    exact h.drawn

theorem Talking.undisturbed {news : List Arrival} (h : Talking rt derived connection start page)
    (hsame : page.Undisturbed news page') :
    Talking rt derived connection start page' ∧ handedIn start page' = handedIn start page ∧
      out page' = out page :=
  h.of_same hsame.authenticated hsame.state hsame.keys hsame.ws hsame.sockets hsame.txSeq hsame.sent
    hsame.sealing

theorem filter_isSealing_of_quiet (h : ∀ job ∈ page.jobs, job.isSealing = false) :
    page.jobs.filter Job.isSealing = [] := by
  apply List.filter_eq_nil_iff.mpr
  intro job hjob
  exact Bool.eq_false_iff.mp (h job hjob)

/-- Where every call of `send` has ended, no number is out. -/
theorem out_of_quiet (h : ∀ job ∈ page.jobs, job.isSealing = false) : out page = [] := by
  rw [out, inFlight_eq, filter_isSealing_of_quiet h, List.filterMap_nil, List.map_nil]

theorem sealedSince_self : start.sealedSince start.sent.length = [] := by
  rw [Plumbing.sealedSince, List.drop_length, List.filterMap_nil]

theorem handedIn_self : handedIn start start = [start.txSeq] := by
  rw [handedIn, sealedSince_self, List.map_nil]

/-- A page on which no call of `send` is under way. -/
theorem talking_start (h : start.Conversing derived connection)
    (hquiet : ∀ job ∈ start.jobs, job.isSealing = false) : Talking rt derived connection start start := by
  constructor
  · exact h
  · rw [sealedSince_self, List.map_nil, List.append_nil]
  · rw [sealedSince_self]
    exact List.forall_mem_nil _
  · rw [filter_isSealing_of_quiet hquiet]
    exact List.forall_mem_nil _
  · rw [handedIn_self, out_of_quiet hquiet]
    constructor
    · exact List.Pairwise.nil
    · intro ticket hticket
      exact (List.mem_singleton.mp hticket).le
    · exact List.mem_cons_self

/-- A call of `send` takes the next number, which fits the header, and awaits the tag. -/
theorem Page.Conversing.send {browser : Browser} (hhmac : browser.hmac = rt.hmac)
    (hkey : derived.clientMac ≠ []) (h : page.Conversing derived connection) (hdraft : trim page.draft ≠ "") :
    ∃ frame plaintext,
      page.send browser =
        { page with
          txSeq := toNumber (page.txSeq + 1)
          jobs := page.jobs ++ [.sealing (trim page.draft) (.ok frame)] } ∧
      frame.seq = toNumber (page.txSeq + 1) ∧
      (SessionState.new derived true false).Seals rt.hmac plaintext frame ∧
      (page.send browser).Conversing derived connection := by
  have hrange : 0 ≤ toNumber (page.txSeq + 1) ∧ toNumber (page.txSeq + 1) ≤ 2 ^ 53 := by
    have hcounter := h.counter
    rcases toNumber_succ hcounter with ⟨hmoves, hlt⟩ | ⟨hstays, _⟩
    · rw [hmoves]
      omega
    · rw [hstays]
      exact hcounter
  have hwide : 0 ≤ toNumber (page.txSeq + 1) ∧ toNumber (page.txSeq + 1) < 2 ^ 64 := by omega
  have hpageKey : derived.page.clientMac ≠ [] := hkey
  have hplain : (SessionState.new derived true false).compress = false := rfl
  obtain ⟨frame, hframe, hnumber, hseals⟩ := seal_seals browser.json rt.hmac hpageKey hplain rfl rfl rfl hwide
    (.object [("text", .string (trim page.draft)), ("sender", .string "browser")])
  have hsend : page.send browser =
      { page with
        txSeq := toNumber (page.txSeq + 1)
        jobs := page.jobs ++ [.sealing (trim page.draft) (.ok frame)] } := by
    have hopen : ¬(trim page.draft = "" ∨ page.state ≠ .ready) := by
      rw [h.state]
      simpa using hdraft
    rw [Page.send]
    dsimp only
    rw [if_neg hopen, h.keys, hhmac]
    simp only [hframe]
    rfl
  refine ⟨frame, _, hsend, hnumber, hseals, ?_⟩
  rw [hsend]
  exact ⟨h.authenticated, h.state, h.keys, h.ws, h.opened, hrange⟩

/-- On an open connection a call of `send` whose tag has arrived writes its frame. -/
theorem Page.Conversing.write (browser : Browser) (h : page.Conversing derived connection) (text : String)
    (frame : SealedFrame) :
    ∃ msgId messages, Page.settle browser (.sealing text (.ok frame)) page =
      { page with sent := page.sent ++ [(connection, .sealed frame)], msgId, messages, draft := "" } := by
  have hsendFrame : page.toPlumbing.sendFrame (.sealed frame) =
      { page.toPlumbing with sent := page.sent ++ [(connection, .sealed frame)] } := by
    rw [Plumbing.sendFrame]
    simp only [h.ws, h.opened, if_true]
  rw [Page.settle, Page.sendFrame, hsendFrame]
  exact ⟨_, _, rfl⟩

/-- A call of `send` draws a number. -/
theorem Talking.send {browser : Browser} (hhmac : browser.hmac = rt.hmac) (hkey : derived.clientMac ≠ [])
    (h : Talking rt derived connection start page) :
    Talking rt derived connection start (page.send browser) ∧
      (Tickets.InOrder (handedIn start (page.send browser)) (out (page.send browser)) ↔
        Tickets.InOrder (handedIn start page) (out page) ∧ (trim page.draft = "" ∨ page.txSeq < 2 ^ 53)) := by
  by_cases hblank : trim page.draft = ""
  · have hsame : page.send browser = page := by
      rw [Page.send]
      exact if_pos (.inl hblank)
    rw [hsame]
    exact ⟨h, fun horder => ⟨horder, .inl hblank⟩, fun horder => horder.1⟩
  · obtain ⟨frame, plaintext, hsend, hnumber, hseals, hconversing⟩ := h.toConversing.send hhmac hkey hblank
    have hout : out (page.send browser) = out page ++ [toNumber (page.txSeq + 1)] := by
      rw [hsend, out, out, Plumbing.inFlight, Plumbing.inFlight, List.filterMap_append, List.map_append]
      exact congrArg (_ ++ [·]) hnumber
    have hhandedIn : handedIn start (page.send browser) = handedIn start page := by
      rw [hsend]
      rfl
    have hcounter := toNumber_succ h.counter
    constructor
    · constructor
      · exact hconversing
      · rw [hsend]
        exact h.sent
      · rw [hsend]
        exact h.written
      · rw [hsend]
        intro job hjob
        rw [List.filter_append] at hjob
        rcases List.mem_append.mp hjob with hold | hnew
        · exact h.pending job hold
        · obtain rfl := List.mem_singleton.mp hnew
          exact ⟨frame, plaintext, rfl, hseals⟩
      · rw [hhandedIn, hout]
        have htxSeq : (page.send browser).txSeq = toNumber (page.txSeq + 1) := by rw [hsend]
        rw [htxSeq]
        apply h.drawn.draw
        omega
    · rw [hhandedIn, hout, Tickets.inOrder_draw h.drawn]
      have hmoves : page.txSeq < toNumber (page.txSeq + 1) ↔
          trim page.draft = "" ∨ page.txSeq < 2 ^ 53 := by
        constructor
        · intro hlt
          right
          omega
        · rintro (hno | hlt)
          · exact absurd hno hblank
          · omega
      rw [hmoves]

/-- A call of `send` whose tag has arrived writes its frame. -/
theorem Talking.write {browser : Browser} (h : Talking rt derived connection start page) {position : Nat}
    {text : String} {result : Except JsError SealedFrame}
    (hjob : page.jobs[position]? = some (.sealing text result)) {page' : Page}
    (hpage' : page' = Page.settle browser (.sealing text result)
      { page with jobs := page.jobs.eraseIdx position }) :
    Talking rt derived connection start page' ∧
      (Tickets.InOrder (handedIn start page') (out page') ↔
        Tickets.InOrder (handedIn start page) (out page) ∧
          ∀ job ∈ page.jobs.take position, job.isSealing = false) := by
  obtain ⟨hlt, hget⟩ := List.getElem?_eq_some_iff.mp hjob
  have hsplit : page.jobs = page.jobs.take position ++
      .sealing text result :: page.jobs.drop (position + 1) := by
    rw [← hget, List.cons_getElem_drop_succ, List.take_append_drop]
  have herase : page.jobs.eraseIdx position = page.jobs.take position ++ page.jobs.drop (position + 1) :=
    List.eraseIdx_eq_take_drop_succ _ _
  obtain ⟨frame, plaintext, hframe, hseals⟩ := h.pending (.sealing text result)
    (List.mem_filter.mpr ⟨List.mem_of_getElem? hjob, rfl⟩)
  obtain rfl : result = .ok frame := by
    cases result with
    | error error => cases hframe
    | ok other => exact congrArg Except.ok (Option.some.inj hframe)
  generalize hbefore : page.jobs.take position = before at hsplit herase ⊢
  generalize page.jobs.drop (position + 1) = after at hsplit herase
  -- the page writes the frame on its open connection
  have herased : Page.Conversing derived connection { page with jobs := before ++ after } :=
    ⟨h.authenticated, h.state, h.keys, h.ws, h.opened, h.counter⟩
  obtain ⟨msgId, messages, hwrites⟩ := herased.write browser text frame
  rw [herase] at hpage'
  rw [← hpage'] at hwrites
  have hsince : page'.sealedSince start.sent.length = page.sealedSince start.sent.length ++ [frame] := by
    have hlength : start.sent.length ≤ page.sent.length := by
      rw [h.sent, List.length_append]
      omega
    rw [hwrites, Plumbing.sealedSince, Plumbing.sealedSince]
    simp only
    rw [List.drop_append_of_le_length hlength, List.filterMap_append]
    rfl
  have hout : out page = before.filterMap (fun job => job.sealedFrame?.map SealedFrame.seq) ++
      frame.seq :: after.filterMap (fun job => job.sealedFrame?.map SealedFrame.seq) := by
    rw [out, Plumbing.inFlight, List.map_filterMap, hsplit, List.filterMap_append, List.filterMap_cons]
    rfl
  have hout' : out page' = before.filterMap (fun job => job.sealedFrame?.map SealedFrame.seq) ++
      after.filterMap (fun job => job.sealedFrame?.map SealedFrame.seq) := by
    rw [out, Plumbing.inFlight, List.map_filterMap, hwrites]
    exact List.filterMap_append
  have hhandedIn : handedIn start page' = handedIn start page ++ [frame.seq] := by
    rw [handedIn, handedIn, hsince, List.map_append]
    rfl
  have hdrawn := h.drawn
  rw [hout] at hdrawn
  have hold : ∀ job ∈ (before ++ after).filter Job.isSealing, ∃ frame plaintext,
      job.sealedFrame? = some frame ∧
        (SessionState.new derived true false).Seals rt.hmac plaintext frame := by
    intro job hmem
    apply h.pending job
    rw [hsplit]
    apply List.Sublist.subset _ hmem
    exact ((List.Sublist.refl before).append (List.sublist_cons_self _ after)).filter _
  constructor
  · constructor
    · rw [hwrites]
      exact ⟨h.authenticated, h.state, h.keys, h.ws, h.opened, h.counter⟩
    · rw [hsince, hwrites]
      simp only [h.sent, List.map_append, List.append_assoc, List.map_cons, List.map_nil]
    · rw [hsince]
      intro other hother
      rcases List.mem_append.mp hother with hearlier | hnew
      · exact h.written other hearlier
      · obtain rfl := List.mem_singleton.mp hnew
        exact ⟨plaintext, hseals⟩
    · rw [hwrites]
      exact hold
    · have htxSeq : page'.txSeq = page.txSeq := by rw [hwrites]
      rw [hhandedIn, hout', htxSeq]
      exact hdrawn.handIn
  · rw [hhandedIn, hout', hout, Tickets.inOrder_handIn hdrawn]
    have hnone : before.filterMap (fun job => job.sealedFrame?.map SealedFrame.seq) = [] ↔
        ∀ job ∈ before, job.isSealing = false := by
      rw [List.filterMap_eq_nil_iff]
      constructor
      · intro hall job hmem
        cases hsealing : job.isSealing with
        | false => rfl
        | true =>
            have hin : job ∈ page.jobs := by
              rw [hsplit]
              exact List.mem_append_left _ hmem
            obtain ⟨other, _, hother, _⟩ := h.pending job (List.mem_filter.mpr ⟨hin, hsealing⟩)
            have hcontra := hall job hmem
            rw [hother] at hcontra
            cases hcontra
      · intro hall job hmem
        have hfalse := hall job hmem
        cases job with
        | sealing text result => cases hfalse
        | _ => rfl
    rw [hnone]

/-- A step of `receiveLoop` goes on. -/
theorem Talking.receive {browser : Browser} (h : Talking rt derived connection start page) {position : Nat}
    {job : Job} (hget : page.jobs[position]? = some job) (hreceives : job.receives = true) :
    Talking rt derived connection start
        (Page.settle browser job { page with jobs := page.jobs.eraseIdx position }) ∧
      handedIn start (Page.settle browser job { page with jobs := page.jobs.eraseIdx position }) =
        handedIn start page ∧
      out (Page.settle browser job { page with jobs := page.jobs.eraseIdx position }) = out page := by
  have hjob : job.isSealing = false := by
    cases job with
    | sealing text result => cases hreceives
    | _ => rfl
  have herase : Talking rt derived connection start { page with jobs := page.jobs.eraseIdx position } ∧
      handedIn start { page with jobs := page.jobs.eraseIdx position } = handedIn start page ∧
        out { page with jobs := page.jobs.eraseIdx position } = out page :=
    h.of_same rfl rfl rfl rfl rfl rfl rfl (filter_eraseIdx hget hjob)
  obtain ⟨herased, hhandedIn, hout⟩ := herase
  obtain ⟨hsettled, hhandedIn', hout'⟩ := herased.undisturbed (Page.undisturbed_settle hreceives)
  exact ⟨hsettled, hhandedIn'.trans hhandedIn, hout'.trans hout⟩

/-- What an event does to the order in which numbers were drawn and written. -/
theorem talking_next {browser : Browser} {grp : ModpGroup} (hhmac : browser.hmac = rt.hmac)
    (hkey : derived.clientMac ≠ []) {event : PageEvent} (h : Talking rt derived connection start page)
    (htalks : page.Talks event) (hnext : page.next browser grp event = some page') :
    Talking rt derived connection start page' ∧
      (Tickets.InOrder (handedIn start page') (out page') ↔
        Tickets.InOrder (handedIn start page) (out page) ∧ page.InTurn event) := by
  have hidle : ∀ {other : Page}, page.InTurn event →
      Talking rt derived connection start other ∧ handedIn start other = handedIn start page ∧
        out other = out page →
      Talking rt derived connection start other ∧
        (Tickets.InOrder (handedIn start other) (out other) ↔
          Tickets.InOrder (handedIn start page) (out page) ∧ page.InTurn event) := by
    rintro other hturn ⟨hother, hhandedIn, hout⟩
    rw [hhandedIn, hout]
    exact ⟨hother, fun horder => ⟨horder, hturn⟩, fun horder => horder.1⟩
  cases event with
  | typePassword text =>
      obtain rfl := Option.some.inj hnext
      exact hidle trivial (h.of_same rfl rfl rfl rfl rfl rfl rfl rfl)
  | typeDraft text =>
      obtain rfl := Option.some.inj hnext
      exact hidle trivial (h.of_same rfl rfl rfl rfl rfl rfl rfl rfl)
  | frame other frame =>
      rw [Page.next] at hnext
      split at hnext
      · obtain rfl := Option.some.inj hnext
        exact hidle trivial (h.undisturbed (Page.undisturbed_onFrame _))
      · cases hnext
  | send =>
      obtain rfl := Option.some.inj hnext
      exact h.send hhmac hkey
  | advance position =>
      rw [Page.next] at hnext
      split at hnext
      · rename_i job hget
        obtain rfl := Option.some.inj hnext
        rcases htalks job hget with hsealing | hreceives
        · cases job with
          | sealing text result =>
              obtain ⟨htalking, hiff⟩ := h.write hget
                (rfl : Page.settle browser (.sealing text result)
                  { page with jobs := page.jobs.eraseIdx position } = _)
              refine ⟨htalking, hiff.trans (and_congr_right fun _ => ?_)⟩
              constructor
              · intro hnone other result' hother
                exact hnone
              · intro hturn
                exact hturn text result hget
          | _ => cases hsealing
        · apply hidle _ (h.receive hget hreceives)
          intro text result hsealing
          rw [hget] at hsealing
          obtain rfl := Option.some.inj hsealing
          cases hreceives
      · cases hnext
  | init accepted => cases htalks
  | timeout accepted => cases htalks
  | «open» other timestamp => cases htalks
  | error other => cases htalks
  | close other => cases htalks
  | authenticate a => cases htalks

end Talking

/-! ### Whole runs -/

theorem Page.runEvents_eq (browser : Browser) (grp : ModpGroup) (events : List PageEvent) (page : Page) :
    page.runEvents browser grp events = EventRuns.run (Page.next browser grp) events page := by
  induction events generalizing page with
  | nil => rfl
  | cons event events ih =>
      rw [runEvents, EventRuns.run]
      exact congrArg (Option.bind _) (funext ih)

/-- The frames written while a page is used, from a moment when no call of `send` is under way to another
one. -/
theorem talking_run {rt : Runtime} {browser : Browser} {grp : ModpGroup} (hhmac : browser.hmac = rt.hmac)
    {derived : SessionKeys} (hkey : derived.clientMac ≠ []) {connection : Nat} {start last : Page}
    (hpage : start.Conversing derived connection) (hquiet : ∀ job ∈ start.jobs, job.isSealing = false)
    {events : List PageEvent} (hrun : start.runEvents browser grp events = some last)
    (htalks : EventRuns.Each (Page.next browser grp) Page.Talks events start)
    (hsettled : ∀ job ∈ last.jobs, job.isSealing = false) :
    ∃ frames : List SealedFrame,
      last.sent = start.sent ++ frames.map (fun frame => (connection, .sealed frame)) ∧
        (∀ frame ∈ frames, ∃ plaintext,
          (SessionState.new derived true false).Seals rt.hmac plaintext frame) ∧
        ((start.txSeq :: frames.map SealedFrame.seq).Pairwise (· < ·) ↔
          EventRuns.Each (Page.next browser grp) Page.InTurn events start) := by
  have hstart : Talking rt derived connection start start := talking_start hpage hquiet
  rw [Page.runEvents_eq] at hrun
  have hstep : ∀ {page : Page} {event : PageEvent} {next : Page}, Talking rt derived connection start page →
      page.Talks event → page.next browser grp event = some next →
      Talking rt derived connection start next ∧
        (Tickets.InOrder (handedIn start next) (out next) ↔
          Tickets.InOrder (handedIn start page) (out page) ∧ page.InTurn event) :=
    fun h hallowed hnext => talking_next hhmac hkey h hallowed hnext
  obtain ⟨hlast, hiff⟩ := EventRuns.run_iff hstep hrun hstart htalks
  have hfirst : Tickets.InOrder (handedIn start start) (out start) := by
    rw [handedIn_self, out_of_quiet hquiet]
    exact List.pairwise_singleton _ _
  refine ⟨last.sealedSince start.sent.length, hlast.sent, hlast.written, ?_⟩
  rw [out_of_quiet hsettled, Tickets.InOrder, List.append_nil, handedIn] at hiff
  rw [hiff]
  exact ⟨fun h => h.2, fun h => ⟨hfirst, h⟩⟩

/-! ### Two calls that overlap -/

section Overlap

variable {rt : Runtime} {browser : Browser} {keys : SessionKeys} {connection : Nat} {page : Page}

/-- One more call of `send` awaits its tag, with the next number. -/
structure Page.Sealing (rt : Runtime) (keys : SessionKeys) (connection : Nat) (text : String)
    (frame : SealedFrame) (page next : Page) : Prop where
  conversing : next.Conversing keys connection
  txSeq : next.txSeq = page.txSeq + 1
  number : frame.seq = page.txSeq + 1
  seals : ∃ plaintext, (SessionState.new keys true false).Seals rt.hmac plaintext frame
  jobs : next.jobs = page.jobs ++ [.sealing (trim text) (.ok frame)]
  sent : next.sent = page.sent

/-- Text is typed and sent. -/
theorem Page.Conversing.typeAndSend (grp : ModpGroup) (hhmac : browser.hmac = rt.hmac)
    (hkey : keys.clientMac ≠ []) (hpage : page.Conversing keys connection) (hroom : page.txSeq < 2 ^ 53)
    {text : String} (htext : trim text ≠ "") :
    ∃ frame next, EventRuns.run (Page.next browser grp) [.typeDraft text, .send] page = some next ∧
      EventRuns.Each (Page.next browser grp) Page.Talks [.typeDraft text, .send] page ∧
      EventRuns.Each (Page.next browser grp) Page.InTurn [.typeDraft text, .send] page ∧
      Page.Sealing rt keys connection text frame page next := by
  have htyped : { page with draft := text }.Conversing keys connection :=
    ⟨hpage.authenticated, hpage.state, hpage.keys, hpage.ws, hpage.opened, hpage.counter⟩
  obtain ⟨frame, plaintext, hsend, hnumber, hseals, hconversing⟩ := htyped.send hhmac hkey htext
  have hmoves : toNumber (page.txSeq + 1) = page.txSeq + 1 := by
    rcases toNumber_succ hpage.counter with ⟨hmoves, _⟩ | ⟨_, hlast⟩
    · exact hmoves
    · exact absurd hlast hroom.ne
  refine ⟨frame, _, rfl, ?_, ?_, ?_⟩
  · exact ⟨trivial, fun _ _ => EventRuns.each_single trivial⟩
  · refine ⟨trivial, ?_⟩
    intro next hnext
    obtain rfl := Option.some.inj hnext
    exact EventRuns.each_single (.inr hroom)
  · constructor
    · exact hconversing
    · rw [hsend]
      exact hmoves
    · exact hnumber.trans hmoves
    · exact ⟨plaintext, hseals⟩
    · rw [hsend]
    · rw [hsend]

/-- Two texts are typed and sent, one right after the other. -/
def twoSends (text text' : String) : List PageEvent := [.typeDraft text, .send, .typeDraft text', .send]

/-- Two calls await their tags. -/
theorem Page.Conversing.overlap (grp : ModpGroup) (hhmac : browser.hmac = rt.hmac)
    (hkey : keys.clientMac ≠ []) (hpage : page.Conversing keys connection) (hroom : page.txSeq + 1 < 2 ^ 53)
    {text text' : String} (htext : trim text ≠ "") (htext' : trim text' ≠ "") :
    ∃ first second middle next,
      EventRuns.run (Page.next browser grp) (twoSends text text') page = some next ∧
      EventRuns.Each (Page.next browser grp) Page.Talks (twoSends text text') page ∧
      EventRuns.Each (Page.next browser grp) Page.InTurn (twoSends text text') page ∧
      Page.Sealing rt keys connection text first page middle ∧
      Page.Sealing rt keys connection text' second middle next := by
  have hnow : page.txSeq < 2 ^ 53 := by omega
  obtain ⟨first, middle, hrun, htalks, hturn, hfirst⟩ := hpage.typeAndSend grp hhmac hkey hnow htext
  have hlater : middle.txSeq < 2 ^ 53 := by
    rw [hfirst.txSeq]
    exact hroom
  obtain ⟨second, next, hrun', htalks', hturn', hsecond⟩ :=
    hfirst.conversing.typeAndSend grp hhmac hkey hlater htext'
  exact ⟨first, second, middle, next, EventRuns.run_append hrun hrun',
    EventRuns.each_append hrun htalks htalks', EventRuns.each_append hrun hturn hturn', hfirst, hsecond⟩

/-- The tag that a call of `send` awaits arrives. -/
theorem Page.Conversing.tagArrives (browser : Browser) (grp : ModpGroup)
    (hpage : page.Conversing keys connection) {position : Nat} {text : String} {frame : SealedFrame}
    (hjob : page.jobs[position]? = some (.sealing text (.ok frame))) :
    ∃ next, page.runEvents browser grp [.advance position] = some next ∧
      EventRuns.Each (Page.next browser grp) Page.Talks [.advance position] page ∧
      next.Conversing keys connection ∧ next.jobs = page.jobs.eraseIdx position ∧
      next.sent = page.sent ++ [(connection, .sealed frame)] := by
  have herased : Page.Conversing keys connection { page with jobs := page.jobs.eraseIdx position } :=
    ⟨hpage.authenticated, hpage.state, hpage.keys, hpage.ws, hpage.opened, hpage.counter⟩
  obtain ⟨msgId, messages, hwrites⟩ := herased.write browser text frame
  have hrun : page.runEvents browser grp [.advance position] =
      some (Page.settle browser (.sealing text (.ok frame))
        { page with jobs := page.jobs.eraseIdx position }) := by
    rw [Page.runEvents, Page.next, hjob]
    rfl
  refine ⟨_, hrun, EventRuns.each_single ?_, ?_, ?_, ?_⟩
  · intro job hget
    left
    rw [hjob] at hget
    obtain rfl := Option.some.inj hget
    rfl
  · rw [hwrites]
    exact ⟨hpage.authenticated, hpage.state, hpage.keys, hpage.ws, hpage.opened, hpage.counter⟩
  · rw [hwrites]
  · rw [hwrites]

/-- The tag of the call at a position arrives, and then that of the other one. -/
def bothTags (position : Nat) : List PageEvent := [.advance position, .advance 0]

/-- The tags of the last two calls arrive. -/
theorem Page.Conversing.bothArrive (browser : Browser) (grp : ModpGroup)
    (hpage : page.Conversing keys connection) {position : Nat} {text text' : String}
    {frame frame' : SealedFrame} (hjob : page.jobs[position]? = some (.sealing text (.ok frame)))
    (hrest : page.jobs.eraseIdx position = [.sealing text' (.ok frame')]) :
    ∃ last, EventRuns.run (Page.next browser grp) (bothTags position) page = some last ∧
      EventRuns.Each (Page.next browser grp) Page.Talks (bothTags position) page ∧
      last.jobs = [] ∧
      last.sent = page.sent ++ [(connection, .sealed frame), (connection, .sealed frame')] := by
  obtain ⟨middle, hrun, htalks, hmiddle, hjobs, hsent⟩ := hpage.tagArrives browser grp hjob
  have hone : middle.jobs = [.sealing text' (.ok frame')] := hjobs.trans hrest
  have hlastJob : middle.jobs[0]? = some (.sealing text' (.ok frame')) := by
    rw [hone]
    rfl
  obtain ⟨last, hrun', htalks', _, hjobs', hsent'⟩ := hmiddle.tagArrives browser grp hlastJob
  rw [Page.runEvents_eq] at hrun hrun'
  refine ⟨last, EventRuns.run_append hrun hrun', EventRuns.each_append hrun htalks htalks', ?_, ?_⟩
  · rw [hjobs', hone]
    rfl
  · rw [hsent', hsent, List.append_assoc]
    rfl

/-- The call that has waited longest is always in its turn. -/
theorem Page.inTurn_first (page : Page) : page.InTurn (.advance 0) := by
  intro text result _ job hjob
  rw [List.take_zero] at hjob
  cases hjob

end Overlap

/-- A page that has authenticated on its first connection. -/
def talkingPage : Page :=
  { Page.loaded 7 with
    sockets := [.opened]
    ws := some 0
    state := .ready
    needsPassword := true
    authenticated := true
    keys := some sampleKeys.page }

theorem talkingPage_conversing : talkingPage.Conversing sampleKeys 0 where
  authenticated := rfl
  state := rfl
  keys := rfl
  ws := rfl
  opened := rfl
  counter := by decide

end Ui

/-! ### What the server accepts -/

/-- The server opens frames that the page has sealed, each in turn, when their numbers increase from the last
one it has accepted, and only then. -/
theorem openEach_ok_iff {rt : Runtime} {keys : SessionKeys} {frames : List SealedFrame}
    (hseals : ∀ frame ∈ frames, ∃ plaintext, (SessionState.new keys true false).Seals rt.hmac plaintext frame)
    {session : SessionState} (hsession : (SessionState.new keys false true).Continues session) :
    (∀ result ∈ session.openEach rt frames, ∃ plaintext, result = .ok plaintext) ↔
      (session.rxSeq :: frames.map SealedFrame.seq).Pairwise (· < ·) := by
  induction frames generalizing session with
  | nil => simp [SessionState.openEach]
  | cons frame frames ih =>
      obtain ⟨⟨plaintext, hseal⟩, hseals⟩ := List.forall_mem_cons.mp hseals
      have hside : session.rxDir = (SessionState.new keys true false).txDir ∧
          session.rxMac = (SessionState.new keys true false).txMac := by
        rw [hsession.2]
        exact ⟨rfl, rfl⟩
      have hlater : (SessionState.new keys false true).Continues { session with rxSeq := frame.seq } := by
        refine ⟨hsession.1, ?_⟩
        rw [hsession.2]
      simp only [SessionState.openEach, List.forall_mem_cons, List.map_cons]
      by_cases hnew : session.rxSeq < frame.seq
      · have hopen : session.open rt frame = (.ok plaintext, { session with rxSeq := frame.seq }) :=
          hseal.opens hside.1 hside.2 hnew
        rw [hopen, ih hseals hlater]
        constructor
        · rintro ⟨_, hrest⟩
          refine List.pairwise_cons.mpr ⟨?_, hrest⟩
          intro number hnumber
          rcases List.mem_cons.mp hnumber with rfl | hin
          · exact hnew
          · exact hnew.trans (List.rel_of_pairwise_cons hrest hin)
        · intro hpairwise
          exact ⟨⟨plaintext, rfl⟩, hpairwise.of_cons⟩
      · constructor
        · rintro ⟨⟨opened, hopened⟩, _⟩
          rw [hseal.replayed hside.1 hside.2 (not_lt.mp hnew)] at hopened
          cases hopened
        · intro hpairwise
          exact absurd (List.rel_of_pairwise_cons hpairwise List.mem_cons_self) hnew

open Ui

/-- A page that is used on one connection, from a moment when no call of `send` is under way and the server has
accepted everything, to one when every call has ended. The frames of the calls leave under increasing numbers
and the server opens each of them if and only if every call went on in its turn. -/
theorem sends_in_sequence_iff (rt : Runtime) {browser : Browser} (grp : ModpGroup)
    (hhmac : browser.hmac = rt.hmac) {keys : SessionKeys} (hkey : keys.clientMac ≠ []) {connection : Nat}
    {start last : Page} (hpage : start.Conversing keys connection)
    (hquiet : ∀ job ∈ start.jobs, job.isSealing = false) {session : SessionState}
    (hsession : (SessionState.new keys false true).Continues session) (hcounter : session.rxSeq = start.txSeq)
    {events : List PageEvent} (hrun : start.runEvents browser grp events = some last)
    (htalks : EventRuns.Each (Page.next browser grp) Page.Talks events start)
    (hsettled : ∀ job ∈ last.jobs, job.isSealing = false) :
    ∃ frames : List SealedFrame,
      last.sent = start.sent ++ frames.map (fun frame => (connection, .sealed frame)) ∧
      ((frames.Pairwise (fun earlier later => earlier.seq < later.seq) ∧
          ∀ result ∈ session.openEach rt frames, ∃ plaintext, result = .ok plaintext) ↔
        EventRuns.Each (Page.next browser grp) Page.InTurn events start) := by
  obtain ⟨frames, hsent, hseals, hiff⟩ := talking_run hhmac hkey hpage hquiet hrun htalks hsettled
  refine ⟨frames, hsent, ?_⟩
  rw [← hiff, openEach_ok_iff hseals hsession, hcounter]
  constructor
  · intro h
    exact h.2
  · intro h
    exact ⟨List.pairwise_map.mp h.of_cons, h⟩

/-- The tags of two calls arrive in the order of the calls. -/
theorem sends_in_sequence_two : ∃ (last : Page) (frames : List SealedFrame),
    talkingPage.runEvents sampleBrowser Ui.group (twoSends "a" "b" ++ bothTags 0) = some last ∧
    last.sent = frames.map (fun frame => (0, .sealed frame)) ∧
    frames.Pairwise (fun earlier later => earlier.seq < later.seq) ∧
    ∀ result ∈ (SessionState.new sampleKeys false true).openEach (sampleRuntime hmacSha256) frames,
      ∃ plaintext, result = .ok plaintext := by
  have hhmac : sampleBrowser.hmac = (sampleRuntime hmacSha256).hmac := rfl
  have hkey : sampleKeys.clientMac ≠ [] := by decide
  obtain ⟨first, second, middle, page, hrun, htalks, hturn, hfirst, hsecond⟩ :=
    talkingPage_conversing.overlap Ui.group hhmac hkey (by decide) (by decide : trim "a" ≠ "")
      (by decide : trim "b" ≠ "")
  have hjobs : page.jobs = [.sealing (trim "a") (.ok first), .sealing (trim "b") (.ok second)] := by
    rw [hsecond.jobs, hfirst.jobs]
    rfl
  have hearlier : page.jobs[0]? = some (.sealing (trim "a") (.ok first)) := by
    rw [hjobs]
    rfl
  have hrest : page.jobs.eraseIdx 0 = [.sealing (trim "b") (.ok second)] := by
    rw [hjobs]
    rfl
  obtain ⟨last, hrun', htalks', hnone, _⟩ :=
    hsecond.conversing.bothArrive sampleBrowser Ui.group hearlier hrest
  have hwhole := EventRuns.run_append hrun hrun'
  rw [← Page.runEvents_eq] at hwhole
  have hinTurn : EventRuns.Each (Page.next sampleBrowser Ui.group) Page.InTurn
      (twoSends "a" "b" ++ bothTags 0) talkingPage :=
    EventRuns.each_append hrun hturn
      ⟨page.inTurn_first, fun next _ => EventRuns.each_single next.inTurn_first⟩
  have hsettled : ∀ job ∈ last.jobs, job.isSealing = false := by
    rw [hnone]
    exact List.forall_mem_nil _
  obtain ⟨frames, hsent, hiff⟩ := sends_in_sequence_iff (sampleRuntime hmacSha256) Ui.group hhmac hkey
    talkingPage_conversing (List.forall_mem_nil _) ⟨.inl rfl, rfl⟩ rfl hwhole
    (EventRuns.each_append hrun htalks htalks') hsettled
  obtain ⟨hincreasing, haccepted⟩ := hiff.mpr hinTurn
  exact ⟨last, frames, hwhole, hsent, hincreasing, haccepted⟩

/-- On every page that is used, two calls of `send` can overlap so that the second tag arrives first. The server
then takes the first text for a replay. -/
theorem overtaken_send {rt : Runtime} {browser : Browser} (grp : ModpGroup) (hhmac : browser.hmac = rt.hmac)
    {keys : SessionKeys} (hkey : keys.clientMac ≠ []) {connection : Nat} {start : Page}
    (hpage : start.Conversing keys connection) (hjobs : start.jobs = []) (hroom : start.txSeq + 1 < 2 ^ 53)
    {session : SessionState} (hsession : (SessionState.new keys false true).Continues session)
    (hcounter : session.rxSeq = start.txSeq) {text text' : String} (htext : trim text ≠ "")
    (htext' : trim text' ≠ "") :
    ∃ (last : Page) (first second : SealedFrame) (plaintext : Bytes) (reason : String),
      start.runEvents browser grp (twoSends text text' ++ bothTags 1) = some last ∧
      EventRuns.Each (Page.next browser grp) Page.Talks (twoSends text text' ++ bothTags 1) start ∧
      last.jobs = [] ∧
      last.sent = start.sent ++ [(connection, .sealed second), (connection, .sealed first)] ∧
      first.seq < second.seq ∧
      session.openEach rt [second, first] = [.ok plaintext, .error (.replayError reason)] := by
  obtain ⟨first, second, middle, page, hrun, htalks, _, hfirst, hsecond⟩ :=
    hpage.overlap grp hhmac hkey hroom htext htext'
  have hboth : page.jobs = [.sealing (trim text) (.ok first), .sealing (trim text') (.ok second)] := by
    rw [hsecond.jobs, hfirst.jobs, hjobs]
    rfl
  have hlater : page.jobs[1]? = some (.sealing (trim text') (.ok second)) := by
    rw [hboth]
    rfl
  have hrest : page.jobs.eraseIdx 1 = [.sealing (trim text) (.ok first)] := by
    rw [hboth]
    rfl
  obtain ⟨last, hrun', htalks', hnone, hwritten⟩ := hsecond.conversing.bothArrive browser grp hlater hrest
  have hwhole := EventRuns.run_append hrun hrun'
  rw [← Page.runEvents_eq] at hwhole
  obtain ⟨plaintext, hseals⟩ := hfirst.seals
  obtain ⟨plaintext', hseals'⟩ := hsecond.seals
  have horder : session.rxSeq < first.seq ∧ first.seq < second.seq := by
    rw [hcounter, hfirst.number, hsecond.number, hfirst.txSeq]
    omega
  have hside : session.rxDir = (SessionState.new keys true false).txDir ∧
      session.rxMac = (SessionState.new keys true false).txMac := by
    rw [hsession.2]
    exact ⟨rfl, rfl⟩
  have hopens : session.open rt second = (.ok plaintext', { session with rxSeq := second.seq }) :=
    hseals'.opens hside.1 hside.2 (horder.1.trans horder.2)
  have hreplayed : ∃ reason, { session with rxSeq := second.seq }.open rt first =
      (.error (.replayError reason), { session with rxSeq := second.seq }) :=
    ⟨_, hseals.replayed hside.1 hside.2 horder.2.le⟩
  obtain ⟨reason, hreplayed⟩ := hreplayed
  refine ⟨last, first, second, plaintext', reason, hwhole, EventRuns.each_append hrun htalks htalks', hnone,
    ?_, horder.2, ?_⟩
  · rw [hwritten, hsecond.sent, hfirst.sent]
  · simp only [SessionState.openEach, hopens, hreplayed]

/-- The second tag arrives first. The server takes the first text for a replay. -/
theorem overtaking_send_replayed : ∃ (last : Page) (first second : SealedFrame) (plaintext : Bytes)
    (reason : String),
    talkingPage.Conversing sampleKeys 0 ∧
    talkingPage.runEvents sampleBrowser Ui.group (twoSends "a" "b" ++ bothTags 1) = some last ∧
    EventRuns.Each (Page.next sampleBrowser Ui.group) Page.Talks (twoSends "a" "b" ++ bothTags 1)
      talkingPage ∧
    last.jobs = [] ∧ last.sent = [(0, .sealed second), (0, .sealed first)] ∧ first.seq < second.seq ∧
    (SessionState.new sampleKeys false true).openEach (sampleRuntime hmacSha256) [second, first] =
      [.ok plaintext, .error (.replayError reason)] := by
  have hhmac : sampleBrowser.hmac = (sampleRuntime hmacSha256).hmac := rfl
  have hkey : sampleKeys.clientMac ≠ [] := by decide
  have hsession : (SessionState.new sampleKeys false true).Continues (SessionState.new sampleKeys false true) :=
    ⟨.inl rfl, rfl⟩
  obtain ⟨last, first, second, plaintext, reason, hovertaken⟩ :=
    overtaken_send Ui.group hhmac hkey talkingPage_conversing rfl (by decide) hsession rfl
      (by decide : trim "a" ≠ "") (by decide : trim "b" ≠ "")
  exact ⟨last, first, second, plaintext, reason, talkingPage_conversing, hovertaken⟩

end Priestly
