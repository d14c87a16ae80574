/-
Module: Priestly.Proofs.BrowserRouting
Layer: Proofs
Purpose: Which function of the page gets which frame. `inbox` and `waiters` outlive a connection, so a
  frame of one connection can reach a reader that was started for another, and what no reader is left for
  stays behind. In a run where every connection opens with nothing left over from the ones before, every
  frame finds a reader of its connection and no reader ends before an unread frame, each frame is read by
  a function of its own connection, and the first frame of a connection by the `handshake` of that
  connection.
Imports: Priestly.Ui.Component, Priestly.Lib.Refinement, Priestly.Proofs.BrowserSealing
Trusted boundary: none
Main exports: Plumbing.Routed, Page.Settled, Plumbing.Turn, Page.settle_turn, frames_routed
-/
import Mathlib.Algebra.BigOperators.Group.List.Basic
import Mathlib.Logic.Relation
import Priestly.Lib.Refinement
import Priestly.Proofs.BrowserSealing
import Priestly.Ui.Component

namespace Priestly

open ByteCodec Interaction

namespace Ui

/-- A reader that was started for the connection a frame arrived on. -/
def Serves (arrival : Arrival) (consumer : Consumer) : Prop :=
  consumer.connection = some arrival.connection

/-- The `handshake` of a connection. -/
def Greets (connection : Nat) (consumer : Consumer) : Prop :=
  consumer = { connection := some connection, resume := .handshake }

namespace Job

/-- The script raises before it asks for a frame. -/
def Raises : Script Keys → Prop
  | .raise _ => True
  | .send _ next => Raises (next none)
  | .done _ | .recv _ => False

/-- A call that reads frames and, when it goes on, asks for none again: `handshake` unless the node is open,
`runCovenant` where it throws, and `receiveLoop` once `this.state` is something else than "ready". -/
def Ends (state : PageState) : Job → Prop
  | resumed ⟨_, .handshake⟩ (.helloAck _ _ false) => False
  | resumed ⟨_, .handshake⟩ _ => True
  | resumed ⟨_, .runCovenant next⟩ frame => Raises (next (.ok frame))
  | resumed ⟨_, .receiveLoop⟩ (.sealed _) => False
  | resumed ⟨_, .receiveLoop⟩ _ => state ≠ .ready
  | computing _ script => Raises script
  | opening _ _ _ => state ≠ .ready
  | sealing _ _ => False

/-- A bound on the turns that are left to a call until it awaits a frame. -/
def weight : Job → Nat
  | resumed _ _ => 2
  | _ => 1

theorem weight_pos (job : Job) : 0 < job.weight := by
  cases job with
  | resumed consumer frame => exact Nat.zero_lt_two
  | _ => exact Nat.one_pos

end Job

namespace Plumbing

/-- Frames reach the functions they are meant for. -/
structure Routed (page : Plumbing) : Prop where
  /-- What is unread while a connection is open has arrived on it. -/
  unread : ∀ connection, page.sockets[connection]? = some .opened →
    ∀ arrival ∈ page.mail.inbox, arrival.connection = connection
  /-- A function that was started for its connection is to go on while a frame is unread. -/
  due : ∀ arrival ∈ page.mail.inbox, ∃ job ∈ page.jobs, job.consumer? = some (some arrival.connection)
  /-- Once none is, the frames that have arrived were consumed, in that order and each of them once. -/
  consumed : (∀ job ∈ page.jobs, job.consumer? = none) →
    page.mail.arrived = page.mail.consumed.map Prod.fst
  /-- Each frame is consumed by a function that was started for its connection. -/
  served : page.mail.Matched Serves
  /-- The first frame of a connection is the one its `handshake` awaits. -/
  greeted : page.mail.Greeted Arrival.connection Greets

/-- While a frame is unread, a function that reads frames is to go on. -/
def Attended (page : Plumbing) : Prop :=
  page.mail.inbox = [] ∨ ∃ job ∈ page.jobs, ∃ connection, job.consumer? = some connection

/-- What the turn of a job comes to. -/
inductive Turn (state : PageState) (job : Job) (page : Plumbing) : Plumbing → Prop where
  | asks (sent : List (Nat × Frame)) (consumer : Consumer) (hgoes : ¬ job.Ends state)
      (hreads : job.consumer? = some consumer.connection) :
      Turn state job page ({ page with sent }.nextFrame consumer)
  /-- `receiveLoop` opens a sealed frame. -/
  | deciphers (connection : Option Nat) (frame : Frame) (seq : Int) (result : Except Js.JsError Json)
      (hgoes : ¬ job.Ends state) (hjob : job = .resumed ⟨connection, .receiveLoop⟩ frame) :
      Turn state job page (page.spawn (.opening connection seq result))
  | ends (sent : List (Nat × Frame))
      (hends : ∀ connection, job.consumer? = some connection → job.Ends state) :
      Turn state job page { page with sent }

/-- A bound on the turns that the jobs can still take while no frame arrives. -/
def work (page : Plumbing) : Nat := 3 * page.mail.inbox.length + (page.jobs.map Job.weight).sum

/-- A connection whose frames can still be read: it is open, or a frame of it is unread. -/
def Live (connection : Nat) (page : Plumbing) : Prop :=
  page.sockets[connection]? = some .opened ∨ ∃ arrival ∈ page.mail.inbox, arrival.connection = connection

/-- A reader of the connection can be given no frame of another one. -/
def Entitled (connection : Option Nat) (page : Plumbing) : Prop :=
  ∀ live, page.Live live → connection = some live

/-- The invariant of the runs in which nothing is left over when a connection opens. -/
structure Orderly (page : Plumbing) : Prop where
  served : page.mail.Matched Serves
  greeted : page.mail.Greeted Arrival.connection Greets
  /-- One connection at most is live. -/
  single : ∀ first second, page.Live first → page.Live second → first = second
  /-- The readers are all of that connection. -/
  owned : ∀ connection ∈ page.consumers, page.Entitled connection
  /-- The first frame of an open connection finds its `handshake` waiting. -/
  awaited : ∀ connection, page.sockets[connection]? = some .opened →
    (∀ arrival ∈ page.mail.arrived, arrival.connection ≠ connection) →
    ∃ waiter rest, page.mail.waiters = waiter :: rest ∧ Greets connection waiter

/-! ### The operations -/

section Operations

variable {page : Plumbing}

theorem mem_consumers {connection : Option Nat} : connection ∈ page.consumers ↔
    (∃ waiter ∈ page.mail.waiters, waiter.connection = connection) ∨
      ∃ job ∈ page.jobs, job.consumer? = some connection := by
  rw [consumers, List.mem_append, List.mem_map, List.mem_filterMap]

/-- What asking for a frame changes. -/
theorem nextFrame_eq (consumer : Consumer) : page.nextFrame consumer =
    { page with
      mail := (page.mail.take consumer).2
      jobs := page.jobs ++
        ((page.mail.take consumer).1.map fun arrival => Job.resumed consumer arrival.frame).toList } := by
  rw [nextFrame]
  rcases page.mail.take consumer with ⟨_ | arrival, mail⟩
  · simp only [Option.map_none, Option.toList_none, List.append_nil]
  · rfl

/-- What the arrival of a frame changes. -/
theorem onFrame_eq (arrival : Arrival) : page.onFrame arrival =
    { page with
      mail := (page.mail.put arrival).2
      jobs := page.jobs ++
        ((page.mail.put arrival).1.map fun consumer => Job.resumed consumer arrival.frame).toList } := by
  rw [onFrame]
  rcases page.mail.put arrival with ⟨_ | consumer, mail⟩
  · simp only [Option.map_none, Option.toList_none, List.append_nil]
  · rfl

/-- Sending touches the history of what was sent only. -/
theorem sendFrame_eq (page : Plumbing) (frame : Frame) :
    ∃ sent, page.sendFrame frame = { page with sent } := by
  rw [sendFrame]
  split
  · exact ⟨page.sent, rfl⟩
  · split
    · exact ⟨_, rfl⟩
    · exact ⟨page.sent, rfl⟩

/-- The reader that asks is the only new one. -/
theorem consumers_nextFrame {consumer : Consumer} {connection : Option Nat}
    (h : connection ∈ (page.nextFrame consumer).consumers) :
    connection ∈ page.consumers ∨ connection = consumer.connection := by
  rw [nextFrame_eq, mem_consumers] at h
  rw [mem_consumers]
  rcases page.mail.take_cases consumer with ⟨arrival, hgiven, _, hwaiters, _⟩ | ⟨hnone, _, _, hwaiters, _⟩
  · rw [hgiven, hwaiters] at h
    rcases h with hwaiter | ⟨job, hjob, hconnection⟩
    · exact .inl (.inl hwaiter)
    · rcases List.mem_append.mp hjob with hold | hnew
      · exact .inl (.inr ⟨job, hold, hconnection⟩)
      · obtain rfl := List.mem_singleton.mp hnew
        exact .inr (Option.some.inj hconnection).symm
  · rw [hnone, hwaiters] at h
    rcases h with ⟨waiter, hwaiter, hconnection⟩ | ⟨job, hjob, hconnection⟩
    · rcases List.mem_append.mp hwaiter with hold | hnew
      · exact .inl (.inl ⟨waiter, hold, hconnection⟩)
      · obtain rfl := List.mem_singleton.mp hnew
        exact .inr hconnection.symm
    · simp only [Option.map_none, Option.toList_none, List.append_nil] at hjob
      exact .inl (.inr ⟨job, hjob, hconnection⟩)

/-- A frame that arrives adds no reader. -/
theorem consumers_onFrame {arrival : Arrival} {connection : Option Nat}
    (h : connection ∈ (page.onFrame arrival).consumers) : connection ∈ page.consumers := by
  rw [onFrame_eq, mem_consumers] at h
  rw [mem_consumers]
  rcases page.mail.put_cases arrival with ⟨waiter, hwoken, hwaiters, _, _⟩ | ⟨hnone, hwaiters, hwaiters', _⟩
  · rw [hwoken] at h
    rcases h with ⟨other, hother, hconnection⟩ | ⟨job, hjob, hconnection⟩
    · left
      refine ⟨other, ?_, hconnection⟩
      rw [hwaiters]
      exact List.mem_cons_of_mem waiter hother
    · rcases List.mem_append.mp hjob with hold | hnew
      · exact .inr ⟨job, hold, hconnection⟩
      · obtain rfl := List.mem_singleton.mp hnew
        left
        refine ⟨waiter, ?_, Option.some.inj hconnection⟩
        rw [hwaiters]
        exact List.mem_cons_self
  · rw [hnone, hwaiters'] at h
    rcases h with ⟨other, hother, _⟩ | ⟨job, hjob, hconnection⟩
    · cases hother
    · simp only [Option.map_none, Option.toList_none, List.append_nil] at hjob
      exact .inr ⟨job, hjob, hconnection⟩

/-- Asking for a frame makes no connection live. -/
theorem live_nextFrame {consumer : Consumer} {connection : Nat}
    (h : (page.nextFrame consumer).Live connection) : page.Live connection := by
  rw [nextFrame_eq] at h
  rcases h with hopened | ⟨arrival, harrival, hconnection⟩
  · exact .inl hopened
  · right
    refine ⟨arrival, ?_, hconnection⟩
    rcases page.mail.take_cases consumer with ⟨first, _, hinbox, _⟩ | ⟨_, _, hinbox, _⟩
    · rw [hinbox]
      exact List.mem_cons_of_mem first harrival
    · rw [hinbox] at harrival
      cases harrival

/-- A frame that arrives on an open connection makes no other one live. -/
theorem live_onFrame {arrival : Arrival} {connection : Nat}
    (hopened : page.sockets[arrival.connection]? = some .opened)
    (h : (page.onFrame arrival).Live connection) : page.Live connection := by
  rw [onFrame_eq] at h
  rcases h with hopen | ⟨other, hother, hconnection⟩
  · exact .inl hopen
  · rcases page.mail.put_cases arrival with ⟨_, _, _, hinbox, _⟩ | ⟨_, _, _, hinbox, _⟩
    · rw [hinbox] at hother
      exact .inr ⟨other, hother, hconnection⟩
    · rw [hinbox] at hother
      rcases List.mem_append.mp hother with hold | hnew
      · exact .inr ⟨other, hold, hconnection⟩
      · obtain rfl := List.mem_singleton.mp hnew
        rw [hconnection] at hopened
        exact .inl hopened

/-- A reader that asks is given what is unread, and then it is to go on. -/
theorem attended_nextFrame (consumer : Consumer) : (page.nextFrame consumer).Attended := by
  rw [nextFrame_eq]
  rcases page.mail.take_cases consumer with ⟨arrival, hgiven, _⟩ | ⟨_, _, hinbox, _⟩
  · right
    refine ⟨.resumed consumer arrival.frame, ?_, consumer.connection, rfl⟩
    rw [hgiven]
    exact List.mem_append_right _ List.mem_cons_self
  · exact .inl hinbox

/-- A frame wakes a reader, or a reader is to go on. -/
theorem attended_onFrame {arrival : Arrival} {connection : Option Nat} (h : connection ∈ page.consumers) :
    (page.onFrame arrival).Attended := by
  rw [onFrame_eq]
  right
  rcases page.mail.put_cases arrival with ⟨waiter, hwoken, _⟩ | ⟨_, hnone, _⟩
  · refine ⟨.resumed waiter arrival.frame, ?_, waiter.connection, rfl⟩
    rw [hwoken]
    exact List.mem_append_right _ List.mem_cons_self
  · rcases mem_consumers.mp h with ⟨waiter, hwaiter, _⟩ | ⟨job, hjob, hreads⟩
    · rw [hnone] at hwaiter
      cases hwaiter
    · exact ⟨job, List.mem_append_left _ hjob, connection, hreads⟩

/-- The other calls go on as before. -/
theorem Attended.spawn (h : page.Attended) (job : Job) : (page.spawn job).Attended := by
  rcases h with hinbox | ⟨other, hother, hreads⟩
  · exact .inl hinbox
  · exact .inr ⟨other, List.mem_append_left _ hother, hreads⟩

/-- The list without a job, and the job. -/
theorem perm_eraseIdx {position : Nat} {job : Job} (h : page.jobs[position]? = some job) :
    (job :: page.jobs.eraseIdx position).Perm page.jobs := by
  obtain ⟨hlt, rfl⟩ := List.getElem?_eq_some_iff.mp h
  exact List.getElem_cons_eraseIdx_perm hlt

/-- A frame that is unread counts for more than the turn it leads to. -/
theorem work_nextFrame (consumer : Consumer) : (page.nextFrame consumer).work ≤ page.work := by
  rw [nextFrame_eq, work, work]
  rcases page.mail.take_cases consumer with ⟨arrival, hgiven, hinbox, _⟩ | ⟨hnone, hinbox, hinbox', _⟩
  · have hjobs : ((page.jobs ++ [Job.resumed consumer arrival.frame]).map Job.weight).sum =
        (page.jobs.map Job.weight).sum + 2 := by
      rw [List.map_append, List.sum_append]
      rfl
    rw [hgiven, hinbox, List.length_cons]
    change 3 * (page.mail.take consumer).2.inbox.length +
      ((page.jobs ++ [Job.resumed consumer arrival.frame]).map Job.weight).sum ≤ _
    omega
  · rw [hnone, hinbox, hinbox']
    change _ + ((page.jobs ++ []).map Job.weight).sum ≤ _
    rw [List.append_nil]

namespace Turn

variable {state : PageState} {job : Job} {page' : Plumbing}

/-- A call that ends leaves an unread frame to the others. -/
theorem attended (h : Turn state job page page')
    (hothers : (∀ connection, job.consumer? = some connection → job.Ends state) → page.Attended) :
    page'.Attended := by
  cases h with
  | asks sent consumer => exact attended_nextFrame consumer
  | deciphers connection frame seq result =>
      right
      exact ⟨_, List.mem_append_right _ List.mem_cons_self, connection, rfl⟩
  | ends sent hends => exact hothers hends

/-- Nothing is done to the frames, and no reader is left, where the only one ends. -/
theorem not_attended (h : Turn state job page page') (hends : job.Ends state) (hnone : ¬ page.Attended) :
    ¬ page'.Attended := by
  cases h with
  | asks _ _ hgoes => exact absurd hends hgoes
  | deciphers _ _ _ _ hgoes => exact absurd hends hgoes
  | ends => exact hnone

/-- Every turn is one less. -/
theorem work_lt (h : Turn state job page page') : page'.work < page.work + job.weight := by
  cases h with
  | asks sent consumer =>
      have hweight := job.weight_pos
      have hle : ({ page with sent }.nextFrame consumer).work ≤ page.work := work_nextFrame consumer
      omega
  | deciphers connection frame seq result hgoes hjob =>
      subst hjob
      rw [work, work, spawn, List.map_append, List.sum_append]
      exact Nat.lt_succ_self _
  | ends => exact Nat.lt_add_of_pos_right job.weight_pos

end Turn

end Operations

namespace Orderly

section Operations

variable {page : Plumbing}

/-- The page at the start. -/
theorem start {page : Plumbing} (hmail : page.mail = .empty) (hjobs : page.jobs = [])
    (hsockets : page.sockets = []) : page.Orderly where
  served := by
    rw [hmail]
    exact Mailbox.matched_empty
  greeted := by
    rw [hmail]
    exact Mailbox.greeted_empty
  single := by
    rintro first _ (hopened | ⟨_, harrival, _⟩) _
    · rw [hsockets] at hopened
      cases hopened
    · rw [hmail] at harrival
      cases harrival
  owned := by
    intro connection hconnection
    rw [consumers, hmail, hjobs] at hconnection
    cases hconnection
  awaited := by
    intro connection hopened
    rw [hsockets] at hopened
    cases hopened

/-- Nothing but the mailbox, the readers and the sockets matters. -/
theorem sent (h : page.Orderly) (sent : List (Nat × Frame)) : { page with sent }.Orderly :=
  ⟨h.served, h.greeted, h.single, h.owned, h.awaited⟩

theorem sendFrame (h : page.Orderly) (frame : Frame) : (page.sendFrame frame).Orderly := by
  obtain ⟨sent, hsent⟩ := sendFrame_eq page frame
  rw [hsent]
  exact h.sent sent

/-- A reader that is entitled to the frames asks for one. -/
theorem nextFrame (h : page.Orderly) {consumer : Consumer} (hentitled : page.Entitled consumer.connection) :
    (page.nextFrame consumer).Orderly where
  served := by
    rw [nextFrame_eq]
    apply h.served.take
    intro arrival rest hinbox
    apply hentitled
    right
    refine ⟨arrival, ?_, rfl⟩
    rw [hinbox]
    exact List.mem_cons_self
  greeted := by
    rw [nextFrame_eq]
    exact h.greeted.take
  single := by
    intro first second hfirst hsecond
    exact h.single first second (live_nextFrame hfirst) (live_nextFrame hsecond)
  owned := by
    intro connection hconnection live hlive
    rcases consumers_nextFrame hconnection with hold | rfl
    · exact h.owned connection hold live (live_nextFrame hlive)
    · exact hentitled live (live_nextFrame hlive)
  awaited := by
    rw [nextFrame_eq]
    intro connection hopened hnone
    rw [Mailbox.arrived_take] at hnone
    obtain ⟨waiter, rest, hwaiters, hgreets⟩ := h.awaited connection hopened hnone
    rcases page.mail.take_cases consumer with ⟨_, _, _, hwaiters', _⟩ | ⟨_, _, _, hwaiters', _⟩
    · exact ⟨waiter, rest, hwaiters'.trans hwaiters, hgreets⟩
    · refine ⟨waiter, rest ++ [consumer], ?_, hgreets⟩
      rw [hwaiters', hwaiters]
      rfl

/-- A frame arrives on an open connection. -/
theorem onFrame (h : page.Orderly) {arrival : Arrival}
    (hopened : page.sockets[arrival.connection]? = some .opened) : (page.onFrame arrival).Orderly where
  served := by
    rw [onFrame_eq]
    apply h.served.put
    intro waiter rest hwaiters
    have hmem : waiter.connection ∈ page.consumers := by
      apply mem_consumers.mpr
      left
      refine ⟨waiter, ?_, rfl⟩
      rw [hwaiters]
      exact List.mem_cons_self
    exact h.owned _ hmem arrival.connection (.inl hopened)
  greeted := by
    rw [onFrame_eq]
    exact h.greeted.put fun hnone => h.awaited arrival.connection hopened hnone
  single := by
    intro first second hfirst hsecond
    exact h.single first second (live_onFrame hopened hfirst) (live_onFrame hopened hsecond)
  owned := by
    intro connection hconnection live hlive
    exact h.owned connection (consumers_onFrame hconnection) live (live_onFrame hopened hlive)
  awaited := by
    rw [onFrame_eq]
    intro connection hopen hnone
    rw [Mailbox.arrived_put] at hnone
    have hsame : arrival.connection = connection := h.single _ _ (.inl hopened) (.inl hopen)
    exact absurd hsame (hnone arrival (List.mem_append_right _ List.mem_cons_self))

/-- A call of a function that is entitled to the frames, or that reads none, goes on later. -/
theorem spawn (h : page.Orderly) {job : Job}
    (hentitled : ∀ connection, job.consumer? = some connection → page.Entitled connection) :
    (page.spawn job).Orderly where
  served := h.served
  greeted := h.greeted
  single := h.single
  owned := by
    intro connection hconnection
    rcases mem_consumers.mp hconnection with hwaiter | ⟨other, hother, hconsumer⟩
    · exact h.owned connection (mem_consumers.mpr (.inl hwaiter))
    · rcases List.mem_append.mp hother with hold | hnew
      · exact h.owned connection (mem_consumers.mpr (.inr ⟨other, hold, hconsumer⟩))
      · obtain rfl := List.mem_singleton.mp hnew
        exact hentitled connection hconsumer
  awaited := h.awaited

/-- A job leaves the list. -/
theorem eraseJob (h : page.Orderly) (position : Nat) :
    { page with jobs := page.jobs.eraseIdx position }.Orderly where
  served := h.served
  greeted := h.greeted
  single := h.single
  owned := by
    intro connection hconnection
    apply h.owned connection
    rcases mem_consumers.mp hconnection with hwaiter | ⟨job, hjob, hconsumer⟩
    · exact mem_consumers.mpr (.inl hwaiter)
    · exact mem_consumers.mpr (.inr ⟨job, List.mem_of_mem_eraseIdx hjob, hconsumer⟩)
  awaited := h.awaited

/-- The sockets change, and no connection opens. -/
theorem sockets (h : page.Orderly) {sockets : List Socket} (ws : Option Nat) (timers : Nat)
    (hsockets : ∀ connection : Nat, sockets[connection]? = some .opened →
      page.sockets[connection]? = some .opened) :
    { page with sockets, ws, timers }.Orderly := by
  have hlive : ∀ connection, { page with sockets, ws, timers }.Live connection → page.Live connection := by
    rintro connection (hopened | hunread)
    · exact .inl (hsockets connection hopened)
    · exact .inr hunread
  constructor
  · exact h.served
  · exact h.greeted
  · intro first second hfirst hsecond
    exact h.single first second (hlive first hfirst) (hlive second hsecond)
  · intro connection hconnection live hlive'
    exact h.owned connection hconnection live (hlive live hlive')
  · intro connection hopened hnone
    exact h.awaited connection (hsockets connection hopened) hnone

/-- A connection opens with nothing left over from the others, and its `handshake` asks for a frame. -/
theorem opens (h : page.Orderly) {connection : Nat} (sent : List (Nat × Frame))
    (hclosed : ∀ other : Nat, page.sockets[other]? ≠ some .opened) (hinbox : page.mail.inbox = [])
    (hconsumers : page.consumers = []) :
    ({ page with sockets := page.sockets.set connection .opened, sent }.nextFrame
      { connection := some connection, resume := .handshake }).Orderly := by
  have hopened : ∀ other : Nat, (page.sockets.set connection .opened)[other]? = some .opened →
      other = connection := by
    intro other hother
    by_contra hne
    rw [List.getElem?_set_ne (Ne.symm hne)] at hother
    exact hclosed other hother
  have hlive : ∀ other,
      { page with sockets := page.sockets.set connection .opened, sent }.Live other →
        other = connection := by
    rintro other (hother | ⟨arrival, harrival, _⟩)
    · exact hopened other hother
    · rw [hinbox] at harrival
      cases harrival
  have hwaits : ∀ waiter ∈ page.mail.waiters, False := by
    intro waiter hwaiter
    have hmem : waiter.connection ∈ page.consumers :=
      mem_consumers.mpr (.inl ⟨waiter, hwaiter, rfl⟩)
    rw [hconsumers] at hmem
    cases hmem
  constructor
  · rw [nextFrame_eq]
    apply h.served.take
    intro arrival rest hcons
    rw [hinbox] at hcons
    cases hcons
  · rw [nextFrame_eq]
    exact h.greeted.take
  · intro first second hfirst hsecond
    rw [hlive first (live_nextFrame hfirst), hlive second (live_nextFrame hsecond)]
  · intro reader hreader other hother
    rw [hlive other (live_nextFrame hother)]
    rcases consumers_nextFrame hreader with hold | hnew
    · have hmem : reader ∈ page.consumers := hold
      rw [hconsumers] at hmem
      cases hmem
    · exact hnew
  · rw [nextFrame_eq]
    intro other hother _
    obtain rfl := hopened other hother
    rcases page.mail.take_cases { connection := some other, resume := .handshake } with
      ⟨_, _, hcons, _⟩ | ⟨_, _, _, hwaiters, _⟩
    · rw [hinbox] at hcons
      cases hcons
    · rw [List.eq_nil_iff_forall_not_mem.mpr hwaits] at hwaiters
      exact ⟨_, [], hwaiters, rfl⟩

/-- A job goes on; a function that reads frames was entitled to them. -/
theorem turn (h : page.Orderly) {state : PageState} {job : Job} {page' : Plumbing}
    (hturn : Turn state job page page')
    (hentitled : ∀ connection, job.consumer? = some connection → page.Entitled connection) :
    page'.Orderly := by
  cases hturn with
  | asks sent consumer _ hreads => exact (h.sent sent).nextFrame (hentitled _ hreads)
  | deciphers connection frame seq result _ hjob =>
      apply h.spawn
      rintro _ ⟨⟩
      apply hentitled
      rw [hjob]
      rfl
  | ends sent => exact h.sent sent

/-- The frames are routed: the reader that is to go on is of the connection that is live. -/
theorem routed (h : page.Orderly) (hattended : page.Attended) : page.Routed where
  unread := by
    intro connection hopened arrival harrival
    exact h.single _ _ (.inr ⟨arrival, harrival, rfl⟩) (.inl hopened)
  due := by
    intro arrival harrival
    rcases hattended with hinbox | ⟨job, hjob, connection, hreads⟩
    · rw [hinbox] at harrival
      cases harrival
    · refine ⟨job, hjob, ?_⟩
      have howned := h.owned connection (mem_consumers.mpr (.inr ⟨job, hjob, hreads⟩))
      rw [hreads, howned arrival.connection (.inr ⟨arrival, harrival, rfl⟩)]
  consumed := by
    intro hnone
    rcases hattended with hinbox | ⟨job, hjob, connection, hreads⟩
    · rw [page.mail.accounts, hinbox, List.append_nil]
    · rw [hnone job hjob] at hreads
      cases hreads
  served := h.served
  greeted := h.greeted

end Operations

end Orderly

/-- Frames that are routed are not left behind. -/
theorem Routed.attended {page : Plumbing} (h : page.Routed) : page.Attended := by
  by_cases hinbox : page.mail.inbox = []
  · exact .inl hinbox
  · obtain ⟨arrival, harrival⟩ := List.exists_mem_of_ne_nil _ hinbox
    obtain ⟨job, hjob, hreads⟩ := h.due arrival harrival
    exact .inr ⟨job, hjob, _, hreads⟩

end Plumbing

/-! ### The functions of the page -/

namespace Page

/-- Nothing is left over: a connection opens when no other one is open, no frame is unread and no function
that reads frames is still running; a frame arrives while a function that was started for its connection is;
such a function ends when no frame is unread or another one is to go on; and `authenticate` is called when
the frames it could be given are of the connection that `this.ws` is. -/
def Settled (page : Page) : PageEvent → Prop
  | .open _ _ =>
      (∀ other : Nat, page.sockets[other]? ≠ some .opened) ∧ page.mail.inbox = [] ∧ page.consumers = []
  | .frame connection _ => some connection ∈ page.consumers
  | .authenticate _ => page.Entitled page.ws
  | .advance position => ∀ job, page.jobs[position]? = some job → job.Ends page.state →
      { page.toPlumbing with jobs := page.jobs.eraseIdx position }.Attended
  | _ => True

section Steps

variable {browser : Browser} {grp : ModpGroup} {page : Page} {connection : Option Nat}

/-- The head of the loop, in the turn of a job. -/
theorem receiveLoop_turn {state : PageState} {job : Job} {start : Plumbing} (hstart : page.toPlumbing = start)
    (hreads : job.consumer? = some connection) (hends : job.Ends state ↔ page.state ≠ .ready) :
    Plumbing.Turn state job start (page.receiveLoop connection).toPlumbing := by
  subst hstart
  rw [receiveLoop]
  split
  · rename_i hready
    exact .asks page.sent { connection, resume := .receiveLoop } (fun h => hends.mp h hready) hreads
  · rename_i hready
    exact .ends page.sent fun _ _ => hends.mpr hready

/-- By induction on the script: it sends, and it ends or asks for a frame. -/
theorem runCovenant_turn {state : PageState} {job : Job} {start : Plumbing} (script : Script Keys)
    (hstart : ∃ sent, page.toPlumbing = { start with sent }) (hreads : job.consumer? = some connection)
    (hends : job.Ends state ↔ Job.Raises script) :
    Plumbing.Turn state job start (runCovenant connection script page).toPlumbing := by
  induction script generalizing page with
  | done keys =>
      obtain ⟨sent, hsent⟩ := hstart
      have hturn : Plumbing.Turn state job start
          ({ start with sent }.nextFrame { connection, resume := .receiveLoop }) :=
        .asks sent _ hends.mp hreads
      rw [← hsent] at hturn
      exact hturn
  | raise error =>
      obtain ⟨sent, hsent⟩ := hstart
      have hturn : Plumbing.Turn state job start { start with sent } :=
        .ends sent fun _ _ => hends.mpr trivial
      rw [← hsent] at hturn
      exact hturn
  | send frame next ih =>
      apply ih none _ hends
      obtain ⟨before, hbefore⟩ := hstart
      obtain ⟨sent, hsent⟩ := Plumbing.sendFrame_eq page.toPlumbing frame
      refine ⟨sent, ?_⟩
      change page.toPlumbing.sendFrame frame = _
      rw [hsent, hbefore]
  | recv next ih =>
      obtain ⟨sent, hsent⟩ := hstart
      have hturn : Plumbing.Turn state job start
          ({ start with sent }.nextFrame { connection, resume := .runCovenant next }) :=
        .asks sent _ hends.mp hreads
      rw [← hsent] at hturn
      exact hturn

/-- What the turn of a job comes to, one case for each place where a function awaits something. -/
theorem settle_turn (browser : Browser) (page : Page) (job : Job) :
    Plumbing.Turn page.state job page.toPlumbing (settle browser job page).toPlumbing := by
  cases job with
  | resumed consumer frame =>
      obtain ⟨connection, resume⟩ := consumer
      cases resume with
      | handshake =>
          cases frame with
          | helloAck status serverName passwordRequired =>
              cases passwordRequired with
              | false => exact .asks page.sent { connection, resume := .receiveLoop } id rfl
              | true => exact .ends page.sent fun _ _ => trivial
          | _ => exact .ends page.sent fun _ _ => trivial
      | runCovenant next => exact runCovenant_turn _ ⟨page.sent, rfl⟩ rfl Iff.rfl
      | receiveLoop =>
          cases frame with
          | «sealed» frame => exact .deciphers connection _ _ _ id rfl
          | _ =>
              apply receiveLoop_turn
              · rfl
              · rfl
              · exact Iff.rfl
  | computing connection script => exact runCovenant_turn script ⟨page.sent, rfl⟩ rfl Iff.rfl
  | opening connection seq result =>
      cases result with
      | error error =>
          apply receiveLoop_turn
          · rfl
          · rfl
          · exact Iff.rfl
      | ok obj =>
          rw [settle, opened]
          split
          · apply receiveLoop_turn
            · rfl
            · rfl
            · exact Iff.rfl
          · apply receiveLoop_turn
            · rfl
            · rfl
            · exact Iff.rfl
  | sealing text result =>
      cases result with
      | error error =>
          apply Plumbing.Turn.ends page.sent
          rintro _ ⟨⟩
      | ok frame =>
          obtain ⟨sent, hsent⟩ := Plumbing.sendFrame_eq page.toPlumbing (.sealed frame)
          have hturn : Plumbing.Turn page.state (.sealing text (.ok frame)) page.toPlumbing
              { page.toPlumbing with sent } := by
            apply Plumbing.Turn.ends sent
            rintro _ ⟨⟩
          rw [← hsent] at hturn
          exact hturn

theorem next_advance {position : Nat} {job : Job} (h : page.jobs[position]? = some job) :
    page.next browser grp (.advance position) =
      some (settle browser job { page with jobs := page.jobs.eraseIdx position }) := by
  rw [next, h]

/-- What an event that lets a job go on does. -/
theorem advance_turn {position : Nat} {page' : Page}
    (h : page.next browser grp (.advance position) = some page') :
    ∃ job, page.jobs[position]? = some job ∧
      Plumbing.Turn page.state job { page.toPlumbing with jobs := page.jobs.eraseIdx position }
        page'.toPlumbing := by
  rw [next] at h
  split at h
  · rename_i job hjob
    obtain rfl := Option.some.inj h
    exact ⟨job, hjob, settle_turn browser { page with jobs := page.jobs.eraseIdx position } job⟩
  · cases h

/-- The turns run out. -/
theorem work_advance {position : Nat} {page' : Page}
    (h : page.next browser grp (.advance position) = some page') : page'.work < page.work := by
  obtain ⟨job, hjob, hturn⟩ := advance_turn h
  have hsum := ((Plumbing.perm_eraseIdx hjob).map Job.weight).sum_eq
  rw [List.map_cons, List.sum_cons] at hsum
  have hlt := hturn.work_lt
  rw [Plumbing.work.eq_def { page.toPlumbing with jobs := page.jobs.eraseIdx position }] at hlt
  rw [Plumbing.work.eq_def page.toPlumbing]
  dsimp only at hlt
  omega

theorem orderly_authenticate (h : page.Orderly) (a : BigInt) (hentitled : page.Entitled page.ws) :
    (page.authenticate browser grp a).Orderly := by
  rw [authenticate]
  split
  · exact h
  · dsimp only
    split
    · apply h.spawn
      rintro _ ⟨⟩
      exact hentitled
    · exact h

theorem attended_authenticate (h : page.Attended) (a : BigInt) :
    (page.authenticate browser grp a).Attended := by
  rw [authenticate]
  split
  · exact h
  · dsimp only
    split
    · exact h.spawn _
    · exact h

theorem orderly_send (h : page.Orderly) : (page.send browser).Orderly := by
  rw [send]
  dsimp only
  split
  · exact h
  · split
    · apply h.spawn
      rintro _ ⟨⟩
    · exact h.sendFrame _

theorem attended_send (h : page.Attended) : (page.send browser).Attended := by
  rw [send]
  dsimp only
  split
  · exact h
  · split
    · exact h.spawn _
    · obtain ⟨sent, hsent⟩ := Plumbing.sendFrame_eq page.toPlumbing (.chat (Js.trim page.draft) "browser")
      change (page.toPlumbing.sendFrame (.chat (Js.trim page.draft) "browser")).Attended
      rw [hsent]
      exact h

theorem orderly_connect (h : page.Orderly) (accepted : Bool) : (page.connect accepted).Orderly := by
  cases accepted with
  | false => exact h
  | true =>
      apply h.sockets
      intro connection hopened
      rcases List.getElem?_append.symm.trans hopened with hold
      split at hold
      · exact hold
      · rename_i hlength
        rw [List.getElem?_singleton] at hold
        split at hold
        · cases hold
        · cases hold

/-- Every event that leaves nothing over preserves the invariant. -/
theorem orderly_next {event : PageEvent} {page' : Page} (h : page.Orderly)
    (hsettled : page.Settled event) (hnext : page.next browser grp event = some page') :
    page'.Orderly := by
  cases event with
  | init accepted =>
      obtain rfl := Option.some.inj hnext
      exact orderly_connect h accepted
  | timeout accepted =>
      rw [next] at hnext
      split at hnext
      · cases hnext
      · obtain rfl := Option.some.inj hnext
        apply orderly_connect
        exact h.sockets page.ws (page.timers - 1) fun _ hopened => hopened
  | «open» connection timestamp =>
      obtain ⟨hclosed, hinbox, hconsumers⟩ := hsettled
      rw [next] at hnext
      split at hnext
      · obtain rfl := Option.some.inj hnext
        rw [handshake]
        dsimp only [sendFrame, nextFrame]
        obtain ⟨sent, hsent⟩ := Plumbing.sendFrame_eq
          { page.toPlumbing with sockets := page.sockets.set connection .opened }
          (.hello { id := 1, userId := page.userId, deviceId := 1, timestamp, status := "browser" })
        rw [hsent]
        exact h.opens sent hclosed hinbox hconsumers
      · cases hnext
  | frame connection frame =>
      rw [next] at hnext
      split at hnext
      · rename_i hopened
        obtain rfl := Option.some.inj hnext
        exact h.onFrame hopened
      · cases hnext
  | error connection =>
      rw [next] at hnext
      split at hnext
      · obtain rfl := Option.some.inj hnext
        exact h
      · cases hnext
  | close connection =>
      rw [next] at hnext
      split at hnext
      · obtain rfl := Option.some.inj hnext
        apply h.sockets
        intro other hopened
        rw [List.getElem?_set] at hopened
        split at hopened
        · split at hopened
          · cases hopened
          · cases hopened
        · exact hopened
      · cases hnext
  | typePassword text =>
      obtain rfl := Option.some.inj hnext
      exact h
  | typeDraft text =>
      obtain rfl := Option.some.inj hnext
      exact h
  | authenticate a =>
      obtain rfl := Option.some.inj hnext
      exact orderly_authenticate h a hsettled
  | send =>
      obtain rfl := Option.some.inj hnext
      exact orderly_send h
  | advance position =>
      obtain ⟨job, hjob, hturn⟩ := advance_turn hnext
      apply (h.eraseJob position).turn hturn
      intro connection hconsumer
      exact h.owned connection
        (Plumbing.mem_consumers.mpr (.inr ⟨job, List.mem_of_getElem? hjob, hconsumer⟩))

theorem attended_next {event : PageEvent} {page' : Page} (h : page.Attended)
    (hsettled : page.Settled event) (hnext : page.next browser grp event = some page') :
    page'.Attended := by
  cases event with
  | init accepted =>
      obtain rfl := Option.some.inj hnext
      cases accepted with
      | false => exact h
      | true => exact h
  | timeout accepted =>
      rw [next] at hnext
      split at hnext
      · cases hnext
      · obtain rfl := Option.some.inj hnext
        cases accepted with
        | false => exact h
        | true => exact h
  | «open» connection timestamp =>
      rw [next] at hnext
      split at hnext
      · obtain rfl := Option.some.inj hnext
        exact Plumbing.attended_nextFrame _
      · cases hnext
  | frame connection frame =>
      rw [next] at hnext
      split at hnext
      · obtain rfl := Option.some.inj hnext
        exact Plumbing.attended_onFrame hsettled
      · cases hnext
  | error connection =>
      rw [next] at hnext
      split at hnext
      · obtain rfl := Option.some.inj hnext
        exact h
      · cases hnext
  | close connection =>
      rw [next] at hnext
      split at hnext
      · obtain rfl := Option.some.inj hnext
        exact h
      · cases hnext
  | typePassword text =>
      obtain rfl := Option.some.inj hnext
      exact h
  | typeDraft text =>
      obtain rfl := Option.some.inj hnext
      exact h
  | authenticate a =>
      obtain rfl := Option.some.inj hnext
      exact attended_authenticate h a
  | send =>
      obtain rfl := Option.some.inj hnext
      exact attended_send h
  | advance position =>
      obtain ⟨job, hjob, hturn⟩ := advance_turn hnext
      apply hturn.attended
      intro hends
      rcases h with hinbox | ⟨reader, hreader, connection, hreads⟩
      · exact .inl hinbox
      · rcases List.mem_cons.mp ((Plumbing.perm_eraseIdx hjob).mem_iff.mpr hreader) with rfl | hother
        · exact hsettled reader hjob (hends connection hreads)
        · exact .inr ⟨reader, hother, connection, hreads⟩

end Steps

/-! ### What is left over -/

section Leftovers

variable {browser : Browser} {grp : ModpGroup} {page : Page} {connection : Nat}

/-- A reader of another connection that has waited longest takes the next frame. -/
theorem not_routed_of_waiting {waiter : Consumer} {rest : List Consumer} {frame : Frame}
    (hopened : page.sockets[connection]? = some .opened) (hwaiters : page.mail.waiters = waiter :: rest)
    (hother : waiter.connection ≠ some connection) :
    ∃ page', page.next browser grp (.frame connection frame) = some page' ∧ ¬ page'.Routed := by
  refine ⟨_, if_pos hopened, ?_⟩
  intro hrouted
  have hserved := hrouted.served
  rw [Plumbing.onFrame_eq] at hserved
  rcases page.mail.put_cases { connection, frame } with ⟨waiter', _, hcons, _, hconsumed⟩ | ⟨_, hnil, _⟩
  · rw [hwaiters] at hcons
    obtain ⟨rfl, _⟩ := List.cons.inj hcons
    apply hother
    apply hserved ({ connection, frame }, waiter)
    rw [hconsumed]
    exact List.mem_append_right _ List.mem_cons_self
  · rw [hwaiters] at hnil
    cases hnil

/-- A frame of another connection that is unread is what `handshake` is given. -/
theorem not_routed_of_unread {arrival : Arrival} {rest : List Arrival} {timestamp : String}
    (hconnecting : page.sockets[connection]? = some .connecting)
    (hinbox : page.mail.inbox = arrival :: rest) (hother : arrival.connection ≠ connection) :
    ∃ page', page.next browser grp (.open connection timestamp) = some page' ∧ ¬ page'.Routed := by
  refine ⟨_, if_pos hconnecting, ?_⟩
  intro hrouted
  have hserved := hrouted.served
  rw [handshake] at hserved
  dsimp only [sendFrame, nextFrame] at hserved
  obtain ⟨sent, hsent⟩ := Plumbing.sendFrame_eq
    { page.toPlumbing with sockets := page.sockets.set connection .opened }
    (.hello { id := 1, userId := page.userId, deviceId := 1, timestamp, status := "browser" })
  rw [hsent, Plumbing.nextFrame_eq] at hserved
  rcases page.mail.take_cases { connection := some connection, resume := .handshake } with
    ⟨arrival', _, hcons, _, hconsumed⟩ | ⟨_, hnil, _⟩
  · rw [hinbox] at hcons
    obtain ⟨rfl, _⟩ := List.cons.inj hcons
    apply hother
    have hsame : some connection = some arrival.connection := by
      apply hserved (arrival, { connection := some connection, resume := .handshake })
      rw [hconsumed]
      exact List.mem_append_right _ List.mem_cons_self
    exact (Option.some.inj hsame).symm
  · rw [hinbox] at hnil
    cases hnil

/-- A frame that arrives while no function of its connection is running is not read, or by another's. -/
theorem not_routed_of_unexpected {frame : Frame} (hopened : page.sockets[connection]? = some .opened)
    (hnone : some connection ∉ page.consumers) :
    ∃ page', page.next browser grp (.frame connection frame) = some page' ∧ ¬ page'.Routed := by
  refine ⟨_, if_pos hopened, ?_⟩
  intro hrouted
  have hserved := hrouted.served
  have hdue := hrouted.due
  rw [Plumbing.onFrame_eq] at hserved hdue
  rcases page.mail.put_cases { connection, frame } with
    ⟨waiter, _, hwaiters, _, hconsumed⟩ | ⟨hnobody, _, _, hinbox, _⟩
  · have hsame : waiter.connection = some connection := by
      apply hserved ({ connection, frame }, waiter)
      rw [hconsumed]
      exact List.mem_append_right _ List.mem_cons_self
    apply hnone
    apply Plumbing.mem_consumers.mpr
    left
    refine ⟨waiter, ?_, hsame⟩
    rw [hwaiters]
    exact List.mem_cons_self
  · obtain ⟨job, hjob, hreads⟩ := hdue { connection, frame } (by
      rw [hinbox]
      exact List.mem_append_right _ List.mem_cons_self)
    rw [hnobody] at hjob
    apply hnone
    apply Plumbing.mem_consumers.mpr
    right
    refine ⟨job, ?_, hreads⟩
    rcases List.mem_append.mp hjob with hold | hnew
    · exact hold
    · cases hnew

/-- The last function that reads frames ends, and what is unread is left. -/
theorem not_routed_of_ending {position : Nat} {job : Job} (hjob : page.jobs[position]? = some job)
    (hends : job.Ends page.state)
    (hnone : ¬ { page.toPlumbing with jobs := page.jobs.eraseIdx position }.Attended) :
    ∃ page', page.next browser grp (.advance position) = some page' ∧ ¬ page'.Routed := by
  refine ⟨_, next_advance hjob, ?_⟩
  intro hrouted
  have hturn := settle_turn browser { page with jobs := page.jobs.eraseIdx position } job
  exact hturn.not_attended hends hnone hrouted.attended

end Leftovers

end Page

/-! ### Runs -/

/-- One event. -/
def PageStep (browser : Browser) (grp : ModpGroup) (page page' : Page) : Prop :=
  ∃ event, page.next browser grp event = some page'

/-- One job goes on, whichever it is. -/
def AdvanceStep (browser : Browser) (grp : ModpGroup) (page page' : Page) : Prop :=
  ∃ position, page.next browser grp (.advance position) = some page'

/-- Whichever go on first, all jobs come to their turn. -/
theorem Page.advances_end (browser : Browser) (grp : ModpGroup) (page : Page) :
    Inevitable (AdvanceStep browser grp) (fun page' => page'.jobs = []) page := by
  have halive : ∀ page : Page, True → page.jobs ≠ [] → ∃ page', AdvanceStep browser grp page page' := by
    intro page _ hjobs
    obtain ⟨job, rest, hcons⟩ := List.exists_cons_of_ne_nil hjobs
    have hjob : page.jobs[0]? = some job := by
      rw [hcons]
      rfl
    exact ⟨_, 0, Page.next_advance hjob⟩
  apply Inevitable.of_wellFounded Nat.lt_wfRel.wf (fun page => page.work) halive _ trivial
  rintro page page' _ ⟨position, hnext⟩
  exact ⟨trivial, Page.work_advance hnext⟩

/-- One event that finds nothing left over. -/
def SettledStep (browser : Browser) (grp : ModpGroup) (page page' : Page) : Prop :=
  ∃ event, page.Settled event ∧ page.next browser grp event = some page'

/-- The events of a list in turn are a run. -/
theorem Page.run_of_events {browser : Browser} {grp : ModpGroup} {events : List PageEvent}
    {page page' : Page} (h : page.runEvents browser grp events = some page') :
    Relation.ReflTransGen (PageStep browser grp) page page' := by
  induction events generalizing page with
  | nil =>
      obtain rfl := Option.some.inj h
      exact .refl
  | cons event events ih =>
      obtain ⟨next, hnext, hrest⟩ := Option.bind_eq_some_iff.mp h
      exact .head ⟨event, hnext⟩ (ih hrest)

/-- A browser, with the names that the two scripts use. -/
def sampleBrowser : Browser where
  json := sampleCodec
  hmac := hmacSha256
  globals :=
    ["window", "globalThis", "crypto", "WebSocket", "JSON", "Math", "Date", "Promise", "setTimeout", "Error",
      "BigInt", "Number", "String", "Array", "Uint8Array", "DataView", "parseInt", "btoa", "atob",
      "TextEncoder", "TextDecoder"].map (·, .other)

end Ui

open Ui Relation

/-- In every run in which nothing is left over, a frame that has arrived was consumed, once and in the order
of arrival, by a function that was started for its connection, or such a function is to go on; the functions
that are to go on all come to their turn, and when they have, every frame was consumed; and the first frame
of a connection is the one its `handshake` awaits. -/
theorem frames_routed (browser : Browser) (grp : ModpGroup) (userId : Int) {page : Page}
    (hrun : ReflTransGen (SettledStep browser grp) (Page.loaded userId) page) :
    page.Routed ∧ Inevitable (AdvanceStep browser grp) (fun page' => page'.jobs = []) page := by
  have hinvariant : page.Orderly ∧ page.Attended := by
    induction hrun with
    | refl => exact ⟨Plumbing.Orderly.start rfl rfl rfl, .inl rfl⟩
    | tail _ hstep ih =>
        obtain ⟨event, hsettled, hnext⟩ := hstep
        exact ⟨Page.orderly_next ih.1 hsettled hnext, Page.attended_next ih.2 hsettled hnext⟩
  exact ⟨hinvariant.1.routed hinvariant.2, Page.advances_end browser grp page⟩

/-- A node with a password, and then without one: `handshake` has ended when the connection drops, the next
one is greeted by its own, and a frame that arrives right behind the `HELLO_ACK` is read by `receiveLoop`. -/
theorem frames_routed_restarted : ∃ page : Page,
    page.mail.consumed.map (fun entry => (entry.1.connection, entry.2.connection)) =
      [(0, some 0), (1, some 1), (1, some 1)] ∧
    page.mail.inbox = [] ∧ page.state = .ready ∧ page.Routed := by
  have hclosed : ∀ {sockets : List Ui.Socket}, Ui.Socket.opened ∉ sockets →
      ∀ other : Nat, sockets[other]? ≠ some .opened := by
    intro sockets hnone other hopened
    exact hnone (List.mem_of_getElem? hopened)
  let ack (required : Bool) : Frame := .helloAck "active" "Node" required
  have hrun : ∃ page, ReflTransGen (SettledStep sampleBrowser Ui.group) (Page.loaded 7) page ∧
      page.mail.consumed.map (fun entry => (entry.1.connection, entry.2.connection)) =
        [(0, some 0), (1, some 1), (1, some 1)] ∧
      page.mail.inbox = [] ∧ page.state = .ready := by
    refine ⟨_, .head ⟨.init true, trivial, rfl⟩ <|
      .head ⟨.open 0 "2024-01-01T00:00:00.000Z", ⟨hclosed (by decide), rfl, rfl⟩, rfl⟩ <|
      .head ⟨.frame 0 (ack true), List.mem_cons_self, rfl⟩ <|
      .head ⟨.advance 0, fun _ _ _ => .inl rfl, rfl⟩ <|
      .head ⟨.close 0, trivial, rfl⟩ <|
      .head ⟨.timeout true, trivial, rfl⟩ <|
      .head ⟨.open 1 "2024-01-01T00:00:03.000Z", ⟨hclosed (by decide), rfl, rfl⟩, rfl⟩ <|
      .head ⟨.frame 1 (ack false), List.mem_cons_self, rfl⟩ <|
      .head ⟨.frame 1 (.chat "hi" "bob"), List.mem_cons_self, rfl⟩ <|
      .head ⟨.advance 0, ?_, rfl⟩ <|
      .single ⟨.advance 0, fun _ _ _ => .inl rfl, rfl⟩, rfl, rfl, rfl⟩
    -- `handshake` goes on to `receiveLoop`.
    rintro _ ⟨⟩ ⟨⟩
  obtain ⟨page, hrun, hconsumed, hinbox, hstate⟩ := hrun
  exact ⟨page, hconsumed, hinbox, hstate, (frames_routed sampleBrowser Ui.group 7 hrun).1⟩

/-- A node without a password: `receiveLoop` awaits a frame when the connection drops, and takes the
`HELLO_ACK` of the next one, whose `handshake` is left waiting. -/
theorem stale_loop_takes_ack :
    ¬ ∀ page : Page, ReflTransGen (PageStep sampleBrowser Ui.group) (Page.loaded 7) page → page.Routed := by
  intro h
  let ack : Frame := .helloAck "active" "Node" false
  let events : List PageEvent :=
    [.init true, .open 0 "2024-01-01T00:00:00.000Z", .frame 0 ack, .advance 0, .close 0, .timeout true,
      .open 1 "2024-01-01T00:00:03.000Z", .frame 1 ack, .advance 0]
  have hevents : ∃ page, (Page.loaded 7).runEvents sampleBrowser Ui.group events = some page ∧
      page.mail.consumed[1]? = some ({ connection := 1, frame := ack },
        { connection := some 0, resume := .receiveLoop }) :=
    ⟨_, rfl, rfl⟩
  obtain ⟨page, hpage, hconsumed⟩ := hevents
  have hserved : some 0 = some 1 :=
    (h page (Page.run_of_events hpage)).served _ (List.mem_of_getElem? hconsumed)
  cases hserved

end Priestly
