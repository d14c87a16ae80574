/-
Module: Priestly.Proofs.BrowserCalls
Layer: Proofs
Purpose: What the functions of the page leave alone. Most of them move frames and calls about and touch neither
  `state` nor the flags of the password gate; those that receive messages touch nothing that `send` uses
  either. The relations here say so once for each function.
Imports: Priestly.Proofs.BrowserRouting
Trusted boundary: none
Main exports: Plumbing.Holds, Job.isSealing, Job.receives, Page.Steady, Page.Undisturbed,
  Page.undisturbed_onFrame, Page.undisturbed_settle, Page.steady_settle, Page.steady_send
-/
import Priestly.Proofs.BrowserRouting

namespace Priestly

open ByteCodec Interaction

namespace Ui

/-- A call of `send` that awaits its tag. -/
def Job.isSealing : Job → Bool
  | .sealing _ _ => true
  | _ => false

/-- A step of `receiveLoop`. -/
def Job.receives : Job → Bool
  | .resumed ⟨_, .receiveLoop⟩ _ => true
  | .opening _ _ _ => true
  | _ => false

/-- A job leaves the list, and the jobs of another kind stay. -/
theorem filter_eraseIdx {kind : Job → Bool} {jobs : List Job} {position : Nat} {job : Job}
    (hget : jobs[position]? = some job) (hjob : kind job = false) :
    (jobs.eraseIdx position).filter kind = jobs.filter kind := by
  obtain ⟨hlt, hget⟩ := List.getElem?_eq_some_iff.mp hget
  have hsplit : jobs = jobs.take position ++ job :: jobs.drop (position + 1) := by
    rw [← hget, List.cons_getElem_drop_succ, List.take_append_drop]
  rw [List.eraseIdx_eq_take_drop_succ]
  nth_rewrite 3 [hsplit]
  rw [List.filter_append, List.filter_append, List.filter_cons, hjob]
  rfl

namespace Plumbing

/-- The call awaits a frame, or has been given one and goes on later. -/
def Holds (consumer : Consumer) (page : Plumbing) : Prop :=
  consumer ∈ page.mail.waiters ∨ ∃ frame, Job.resumed consumer frame ∈ page.jobs

section Operations

variable {page : Plumbing} {consumer : Consumer}

/-- The reader that asks is the only new one. -/
theorem holds_nextFrame {reader : Consumer} :
    (page.nextFrame reader).Holds consumer ↔ page.Holds consumer ∨ consumer = reader := by
  rw [nextFrame_eq, Holds, Holds]
  rcases page.mail.take_cases reader with ⟨arrival, hgiven, _, hwaiters, _⟩ | ⟨hnone, _, _, hwaiters, _⟩
  · simp only [hgiven, hwaiters, Option.map_some, Option.toList_some, List.mem_append, List.mem_singleton,
      Job.resumed.injEq]
    constructor
    · rintro (hwaits | ⟨frame, hjob | ⟨rfl, _⟩⟩)
      · exact .inl (.inl hwaits)
      · exact .inl (.inr ⟨frame, hjob⟩)
      · exact .inr rfl
    · rintro ((hwaits | ⟨frame, hjob⟩) | rfl)
      · exact .inl hwaits
      · exact .inr ⟨frame, .inl hjob⟩
      · exact .inr ⟨arrival.frame, .inr ⟨rfl, rfl⟩⟩
  · simp only [hnone, hwaiters, Option.map_none, Option.toList_none, List.append_nil, List.mem_append,
      List.mem_singleton]
    constructor
    · rintro ((hwaits | rfl) | hjob)
      · exact .inl (.inl hwaits)
      · exact .inr rfl
      · exact .inl (.inr hjob)
    · rintro ((hwaits | hjob) | rfl)
      · exact .inl (.inl hwaits)
      · exact .inr hjob
      · exact .inl (.inr rfl)

/-- A frame that arrives wakes a call or none. -/
theorem holds_onFrame {arrival : Arrival} :
    (page.onFrame arrival).Holds consumer ↔ page.Holds consumer := by
  rw [onFrame_eq, Holds, Holds]
  rcases page.mail.put_cases arrival with ⟨waiter, hwoken, hwaiters, _, _⟩ | ⟨hnone, hwaiters, hwaiters', _⟩
  · simp only [hwoken, hwaiters, Option.map_some, Option.toList_some, List.mem_append, List.mem_cons,
      List.not_mem_nil, or_false, Job.resumed.injEq]
    constructor
    · rintro (hwaits | ⟨frame, hjob | ⟨rfl, _⟩⟩)
      · exact .inl (.inr hwaits)
      · exact .inr ⟨frame, hjob⟩
      · exact .inl (.inl rfl)
    · rintro ((rfl | hwaits) | ⟨frame, hjob⟩)
      · exact .inr ⟨arrival.frame, .inr ⟨rfl, rfl⟩⟩
      · exact .inl hwaits
      · exact .inr ⟨frame, .inl hjob⟩
  · simp only [hnone, hwaiters, hwaiters', Option.map_none, Option.toList_none, List.append_nil]

/-- Calls that have been given a frame are not calls of `send`. -/
theorem filter_isSealing_append {jobs woken : List Job}
    (h : ∀ job ∈ woken, ∃ consumer frame, job = .resumed consumer frame) :
    (jobs ++ woken).filter Job.isSealing = jobs.filter Job.isSealing := by
  have hnone : woken.filter Job.isSealing = [] := by
    apply List.filter_eq_nil_iff.mpr
    intro job hjob
    obtain ⟨_, _, rfl⟩ := h job hjob
    exact Bool.false_ne_true
  rw [List.filter_append, hnone, List.append_nil]

end Operations

end Plumbing

/-! ### What stays the same -/

namespace Page

/-- `state`, `authenticated` and the connections are as before, no call that reads frames or computes has ended,
and these frames have arrived. -/
structure Steady (news : List Arrival) (page page' : Page) : Prop where
  state : page'.state = page.state
  authenticated : page'.authenticated = page.authenticated
  ws : page'.ws = page.ws
  sockets : page'.sockets = page.sockets
  calls : ∀ consumer, page.Holds consumer → page'.Holds consumer
  computing : ∀ connection script, Job.computing connection script ∈ page.jobs →
    Job.computing connection script ∈ page'.jobs
  arrived : page'.mail.arrived = page.mail.arrived ++ news

/-- Besides, what `send` uses is as before. -/
structure Undisturbed (news : List Arrival) (page page' : Page) : Prop extends Steady news page page' where
  keys : page'.keys = page.keys
  txSeq : page'.txSeq = page.txSeq
  sent : page'.sent = page.sent
  sealing : page'.jobs.filter Job.isSealing = page.jobs.filter Job.isSealing

section Relations

variable {page page' page'' : Page}

/-- Functions that touch the other fields only. -/
theorem Steady.of_same (hstate : page'.state = page.state)
    (hauthenticated : page'.authenticated = page.authenticated) (hws : page'.ws = page.ws)
    (hsockets : page'.sockets = page.sockets) (hmail : page'.mail = page.mail)
    (hjobs : page'.jobs = page.jobs) : Steady [] page page' where
  state := hstate
  authenticated := hauthenticated
  ws := hws
  sockets := hsockets
  calls := by
    intro consumer h
    rw [Plumbing.Holds, hmail, hjobs]
    exact h
  computing := by
    intro connection script h
    rw [hjobs]
    exact h
  arrived := by rw [hmail, List.append_nil]

theorem Steady.trans (h : Steady [] page page') (h' : Steady [] page' page'') : Steady [] page page'' where
  state := h'.state.trans h.state
  authenticated := h'.authenticated.trans h.authenticated
  ws := h'.ws.trans h.ws
  sockets := h'.sockets.trans h.sockets
  calls := fun consumer hholds => h'.calls consumer (h.calls consumer hholds)
  computing := fun connection script hjob => h'.computing connection script (h.computing connection script hjob)
  arrived := by rw [h'.arrived, h.arrived, List.append_nil]

theorem Undisturbed.refl (page : Page) : Undisturbed [] page page where
  toSteady := .of_same rfl rfl rfl rfl rfl rfl
  keys := rfl
  txSeq := rfl
  sent := rfl
  sealing := rfl

theorem Undisturbed.trans (h : Undisturbed [] page page') (h' : Undisturbed [] page' page'') :
    Undisturbed [] page page'' where
  toSteady := h.toSteady.trans h'.toSteady
  keys := h'.keys.trans h.keys
  txSeq := h'.txSeq.trans h.txSeq
  sent := h'.sent.trans h.sent
  sealing := h'.sealing.trans h.sealing

end Relations

section Functions

variable {browser : Browser} {page : Page} {connection : Option Nat}

/-- Calls are given a frame, and the mailbox changes. -/
theorem undisturbed_woken {news : List Arrival} {mail : Mailbox Arrival Consumer} {woken : List Job}
    (hresumed : ∀ job ∈ woken, ∃ consumer frame, job = .resumed consumer frame)
    (hcalls : ∀ consumer, page.Holds consumer →
      Plumbing.Holds consumer { page.toPlumbing with mail, jobs := page.jobs ++ woken })
    (harrived : mail.arrived = page.mail.arrived ++ news) :
    Undisturbed news page
      { page with toPlumbing := { page.toPlumbing with mail, jobs := page.jobs ++ woken } } where
  state := rfl
  authenticated := rfl
  ws := rfl
  sockets := rfl
  calls := hcalls
  computing := fun _ _ hjob => List.mem_append_left woken hjob
  arrived := harrived
  keys := rfl
  txSeq := rfl
  sent := rfl
  sealing := Plumbing.filter_isSealing_append hresumed

theorem resumed_of_mem {α : Type} {given : Option α} {f : α → Job} {job : Job}
    (hf : ∀ value, ∃ consumer frame, f value = .resumed consumer frame) (h : job ∈ (given.map f).toList) :
    ∃ consumer frame, job = .resumed consumer frame := by
  cases given with
  | none => cases h
  | some value =>
      obtain rfl := List.mem_singleton.mp h
      exact hf value

/-- A function asks for a frame. -/
theorem undisturbed_nextFrame (page : Page) (reader : Consumer) :
    Undisturbed [] page (page.nextFrame reader) := by
  have hcalls : ∀ consumer, page.Holds consumer → (page.toPlumbing.nextFrame reader).Holds consumer :=
    fun consumer hholds => Plumbing.holds_nextFrame.mpr (.inl hholds)
  rw [Plumbing.nextFrame_eq] at hcalls
  rw [nextFrame, Plumbing.nextFrame_eq]
  apply undisturbed_woken _ hcalls
  · rw [Mailbox.arrived_take, List.append_nil]
  · exact fun job => resumed_of_mem fun arrival => ⟨reader, arrival.frame, rfl⟩

theorem undisturbed_onFrame (arrival : Arrival) :
    Undisturbed [arrival] page { page with toPlumbing := page.toPlumbing.onFrame arrival } := by
  have hcalls : ∀ consumer, page.Holds consumer → (page.toPlumbing.onFrame arrival).Holds consumer :=
    fun consumer => Plumbing.holds_onFrame.mpr
  rw [Plumbing.onFrame_eq] at hcalls
  rw [Plumbing.onFrame_eq]
  apply undisturbed_woken _ hcalls
  · rw [Mailbox.arrived_put]
  · exact fun job => resumed_of_mem fun consumer => ⟨consumer, arrival.frame, rfl⟩

theorem undisturbed_receiveLoop (page : Page) (connection : Option Nat) :
    Undisturbed [] page (page.receiveLoop connection) := by
  rw [receiveLoop]
  split
  · exact undisturbed_nextFrame page _
  · exact .refl page

/-- A call goes on later. -/
theorem steady_spawn (page : Page) (job : Job) : Steady [] page (page.spawn job) where
  state := rfl
  authenticated := rfl
  ws := rfl
  sockets := rfl
  calls := by
    rintro consumer (hwaits | ⟨frame, hjob⟩)
    · exact .inl hwaits
    · exact .inr ⟨frame, List.mem_append_left _ hjob⟩
  computing := fun _ _ hjob => List.mem_append_left _ hjob
  arrived := (List.append_nil _).symm

/-- A call that opens a frame is not one of `send`. -/
theorem undisturbed_opening (page : Page) (connection : Option Nat) (seq : Int)
    (result : Except Js.JsError Json) : Undisturbed [] page (page.spawn (.opening connection seq result)) := by
  constructor
  · exact steady_spawn page _
  · rfl
  · rfl
  · rfl
  · have hsplit : (page.jobs ++ [Job.opening connection seq result]).filter Job.isSealing =
        page.jobs.filter Job.isSealing := by
      rw [List.filter_append]
      exact List.append_nil _
    exact hsplit

/-- The fields a received message changes are none of these. -/
theorem undisturbed_message (page : Page) (messages : List Entry) (msgId : Nat) (rxSeq : Int) (error : String) :
    Undisturbed [] page { page with messages, msgId, rxSeq, error } where
  toSteady := .of_same rfl rfl rfl rfl rfl rfl
  keys := rfl
  txSeq := rfl
  sent := rfl
  sealing := rfl

theorem undisturbed_received (page : Page) (connection : Option Nat) (frame : Frame) :
    Undisturbed [] page (page.received browser connection frame) := by
  cases frame with
  | chat text sender =>
      apply Undisturbed.trans (undisturbed_message page _ _ page.rxSeq page.error)
      exact undisturbed_receiveLoop _ connection
  | «sealed» frame => exact undisturbed_opening page connection _ _
  | error code reason =>
      apply Undisturbed.trans (undisturbed_message page page.messages page.msgId page.rxSeq _)
      exact undisturbed_receiveLoop _ connection
  | _ => exact undisturbed_receiveLoop page connection

theorem undisturbed_opened (page : Page) (connection : Option Nat) (seq : Int)
    (result : Except Js.JsError Json) : Undisturbed [] page (page.opened connection seq result) := by
  cases result with
  | error error => exact undisturbed_receiveLoop page connection
  | ok obj =>
      rw [opened]
      split
      · apply Undisturbed.trans (undisturbed_message page _ _ seq page.error)
        exact undisturbed_receiveLoop _ connection
      · apply Undisturbed.trans (undisturbed_message page page.messages page.msgId seq page.error)
        exact undisturbed_receiveLoop _ connection

/-- Writing a frame touches none of these. -/
theorem steady_sendFrame (page : Page) (frame : Frame) : Steady [] page (page.sendFrame frame) := by
  obtain ⟨sent, hsent⟩ := Plumbing.sendFrame_eq page.toPlumbing frame
  rw [sendFrame, hsent]
  exact .of_same rfl rfl rfl rfl rfl rfl

theorem steady_sendDone (page : Page) (text : String) : Steady [] page (page.sendDone text) :=
  .of_same rfl rfl rfl rfl rfl rfl

/-- `send` goes on, or is called, without touching these. -/
theorem steady_send (page : Page) : Steady [] page (page.send browser) := by
  rw [send]
  dsimp only
  split
  · exact (Undisturbed.refl page).toSteady
  · split
    · apply Steady.trans _ (steady_spawn _ _)
      exact .of_same rfl rfl rfl rfl rfl rfl
    · exact (steady_sendFrame page _).trans (steady_sendDone _ _)

/-- A step of `receiveLoop` goes on. -/
theorem undisturbed_settle {job : Job} (h : job.receives = true) :
    Undisturbed [] page (settle browser job page) := by
  cases job with
  | resumed consumer frame =>
      obtain ⟨reader, resume⟩ := consumer
      cases resume with
      | receiveLoop => exact undisturbed_received page reader frame
      | _ => cases h
  | opening reader seq result => exact undisturbed_opened page reader seq result
  | _ => cases h

/-- A call of `send`, or a step of `receiveLoop`, goes on. -/
theorem steady_settle {job : Job} (h : job.isSealing = true ∨ job.receives = true) :
    Steady [] page (settle browser job page) := by
  rcases h with hsealing | hreceives
  · cases job with
    | sealing text result =>
        cases result with
        | error error => exact (Undisturbed.refl page).toSteady
        | ok frame => exact (steady_sendFrame page _).trans (steady_sendDone _ _)
    | _ => cases hsealing
  · exact (undisturbed_settle hreceives).toSteady

end Functions

end Page

end Ui

end Priestly
