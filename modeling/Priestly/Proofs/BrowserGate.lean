/-
Module: Priestly.Proofs.BrowserGate
Layer: Proofs
Purpose: When the password gate can be used. `authenticate` and `handshake` both write "authenticating", and the
  template disables the field and the button on it. In `authenticate` a call of `runCovenant` is under way then;
  in `handshake` nothing is, and the gate is dead from the moment the node asks for a password.
Imports: Priestly.Lib.EventRuns, Priestly.Proofs.BrowserCalls
Trusted boundary: none
Main exports: Plumbing.CovenantInProgress, Plumbing.RequiresPassword, Page.AwaitsPassword, Page.GateAlive,
  Page.Stalls, alive_next, gate_alive_iff, gate_dead_at_first_ack
-/
import Priestly.Lib.EventRuns
import Priestly.Proofs.BrowserCalls

namespace Priestly

open ByteCodec Interaction

namespace Ui

/-! ### The gate -/

/-- A call of `runCovenant`. -/
def Consumer.runsCovenant : Consumer → Bool
  | ⟨_, .runCovenant _⟩ => true
  | _ => false

/-- A call of `runCovenant` that goes on later. -/
def Job.runsCovenant : Job → Bool
  | .resumed consumer _ => consumer.runsCovenant
  | .computing _ _ => true
  | _ => false

namespace Plumbing

/-- A call of `runCovenant` has not ended: it awaits a frame, or goes on later. -/
def CovenantInProgress (page : Plumbing) : Prop :=
  (∃ consumer ∈ page.mail.waiters, consumer.runsCovenant = true) ∨ ∃ job ∈ page.jobs, job.runsCovenant = true

/-- The node's `HELLO_ACK` on a connection required a password. -/
def RequiresPassword (connection : Nat) (page : Plumbing) : Prop :=
  ∃ status serverName, { connection, frame := .helloAck status serverName true } ∈ page.mail.arrived

/-- Frames have arrived on connections that have opened. -/
def Begun (page : Plumbing) : Prop :=
  ∀ arrival ∈ page.mail.arrived, page.sockets[arrival.connection]? = some .opened ∨
    page.sockets[arrival.connection]? = some .closed

end Plumbing

namespace Page

/-- It is the user's turn: the connection is open, its node required a password, the page is not authenticated,
and no call of `runCovenant` is in progress. -/
structure AwaitsPassword (page : Page) : Prop where
  asked : ∃ connection, page.ws = some connection ∧ page.sockets[connection]? = some .opened ∧
    page.RequiresPassword connection
  unauthenticated : page.authenticated = false
  idle : ¬ page.CovenantInProgress

/-- When it is the user's turn, the field is enabled, and the button is once the field is not empty. -/
def GateAlive (page : Page) : Prop :=
  page.AwaitsPassword → page.fieldEnabled = true ∧ (page.password ≠ "" → page.enterEnabled = true)

/-- The steps that leave the gate dead: `handshake` reads a `HELLO_ACK` that requires a password when it is the
user's turn, or one arrives while the page still shows "Verifying…" for another. -/
def Stalls (page : Page) : PageEvent → Prop
  | .advance position => page.AwaitsPassword ∧ ∃ connection status serverName,
      page.jobs[position]? =
        some (.resumed { connection, resume := .handshake } (.helloAck status serverName true))
  | .frame connection frame =>
      page.ws = some connection ∧ page.sockets[connection]? = some .opened ∧ page.authenticated = false ∧
        ¬ page.CovenantInProgress ∧ page.state = .authenticating ∧
        ∃ status serverName, frame = .helloAck status serverName true
  | _ => False

end Page

/-! ### Calls of `runCovenant` -/

namespace Plumbing

variable {page : Plumbing}

theorem inProgress_iff : page.CovenantInProgress ↔
    (∃ consumer, consumer.runsCovenant = true ∧ page.Holds consumer) ∨
      ∃ connection script, Job.computing connection script ∈ page.jobs := by
  constructor
  · rintro (⟨consumer, hwaits, hruns⟩ | ⟨job, hjob, hruns⟩)
    · exact .inl ⟨consumer, hruns, .inl hwaits⟩
    · cases job with
      | resumed consumer frame => exact .inl ⟨consumer, hruns, .inr ⟨frame, hjob⟩⟩
      | computing connection script => exact .inr ⟨connection, script, hjob⟩
      | _ => cases hruns
  · rintro (⟨consumer, hruns, hwaits | ⟨frame, hjob⟩⟩ | ⟨connection, script, hjob⟩)
    · exact .inl ⟨consumer, hwaits, hruns⟩
    · exact .inr ⟨.resumed consumer frame, hjob, hruns⟩
    · exact .inr ⟨.computing connection script, hjob, rfl⟩

/-- A job of another kind leaves the list. -/
theorem inProgress_eraseIdx {position : Nat} {job : Job} (hget : page.jobs[position]? = some job)
    (hjob : job.runsCovenant = false) :
    ({ page with jobs := page.jobs.eraseIdx position } : Plumbing).CovenantInProgress ↔
      page.CovenantInProgress := by
  have hsame : ∀ other, (other ∈ page.jobs.eraseIdx position ∧ other.runsCovenant = true) ↔
      (other ∈ page.jobs ∧ other.runsCovenant = true) := by
    intro other
    rw [← List.mem_filter, ← List.mem_filter, filter_eraseIdx hget hjob]
  rw [CovenantInProgress, CovenantInProgress]
  exact or_congr_right (exists_congr hsame)

/-- A frame that arrives ends no call and starts none. -/
theorem inProgress_onFrame {arrival : Arrival} :
    (page.onFrame arrival).CovenantInProgress ↔ page.CovenantInProgress := by
  have hcomputing : ∀ connection script,
      Job.computing connection script ∈ (page.onFrame arrival).jobs ↔
        Job.computing connection script ∈ page.jobs := by
    intro connection script
    rw [onFrame_eq, List.mem_append]
    constructor
    · rintro (hold | hwoken)
      · exact hold
      · obtain ⟨_, _, hresumed⟩ :=
          Page.resumed_of_mem (fun consumer => ⟨consumer, arrival.frame, rfl⟩) hwoken
        cases hresumed
    · exact .inl
  rw [inProgress_iff, inProgress_iff]
  simp only [holds_onFrame, hcomputing]

theorem Begun.lt (h : page.Begun) {arrival : Arrival} (hmem : arrival ∈ page.mail.arrived) :
    arrival.connection < page.sockets.length := by
  rcases h arrival hmem with hopened | hclosed
  · exact (List.getElem?_eq_some_iff.mp hopened).1
  · exact (List.getElem?_eq_some_iff.mp hclosed).1

/-- A socket opens or closes. -/
theorem Begun.set (h : page.Begun) {connection : Nat} {socket : Socket}
    (hsocket : socket = .opened ∨ socket = .closed) :
    ∀ arrival ∈ page.mail.arrived,
      (page.sockets.set connection socket)[arrival.connection]? = some .opened ∨
        (page.sockets.set connection socket)[arrival.connection]? = some .closed := by
  intro arrival hmem
  by_cases hsame : connection = arrival.connection
  · rw [hsame, List.getElem?_set_self (h.lt hmem)]
    rcases hsocket with rfl | rfl
    · exact .inl rfl
    · exact .inr rfl
  · rw [List.getElem?_set_ne hsame]
    exact h arrival hmem

end Plumbing

namespace Page

section Gate

variable {browser : Browser} {grp : ModpGroup} {page page' : Page}

theorem Steady.inProgress {news : List Arrival} (h : Steady news page page')
    (hprogress : page.CovenantInProgress) : page'.CovenantInProgress := by
  apply Plumbing.inProgress_iff.mpr
  rcases Plumbing.inProgress_iff.mp hprogress with ⟨consumer, hruns, hholds⟩ | ⟨connection, script, hjob⟩
  · exact .inl ⟨consumer, hruns, h.calls consumer hholds⟩
  · exact .inr ⟨connection, script, h.computing connection script hjob⟩

/-! ### What keeps the gate alive -/

/-- The gate is dead in one state only. -/
theorem gateAlive_iff : page.GateAlive ↔ (page.AwaitsPassword → page.state ≠ .authenticating) := by
  apply forall_congr'
  intro _
  rw [fieldEnabled, enterEnabled]
  constructor
  · rintro ⟨hfield, _⟩ hstate
    rw [hstate] at hfield
    cases hfield
  · intro hstate
    simp [hstate]

theorem alive_of_state (h : page.state ≠ .authenticating) : page.GateAlive :=
  gateAlive_iff.mpr fun _ => h

/-- `fail` shows its message over a gate that can be used. -/
theorem alive_fail (msg : String) : (page.fail msg).GateAlive := alive_of_state PageState.noConfusion

/-- So does the `catch` of `authenticate`. -/
theorem alive_refused : page.refused.GateAlive := alive_of_state PageState.noConfusion

theorem alive_of_inProgress (h : page.CovenantInProgress) : page.GateAlive :=
  gateAlive_iff.mpr fun hawaits => absurd h hawaits.idle

/-- The user's turn has not begun where nothing has ended and no frame has arrived. -/
theorem Steady.awaitsPassword (h : Steady [] page page') (hawaits : page'.AwaitsPassword) :
    page.AwaitsPassword := by
  obtain ⟨connection, hws, hopened, status, serverName, harrived⟩ := hawaits.asked
  rw [h.ws] at hws
  rw [h.sockets] at hopened
  rw [h.arrived, List.append_nil] at harrived
  constructor
  · exact ⟨connection, hws, hopened, status, serverName, harrived⟩
  · rw [← h.authenticated]
    exact hawaits.unauthenticated
  · exact fun hprogress => hawaits.idle (h.inProgress hprogress)

/-- A job that is no call of `runCovenant` leaves the list. -/
theorem awaitsPassword_eraseIdx {position : Nat} {job : Job} (hget : page.jobs[position]? = some job)
    (hjob : job.runsCovenant = false) :
    { page with jobs := page.jobs.eraseIdx position }.AwaitsPassword ↔ page.AwaitsPassword := by
  have hprogress := Plumbing.inProgress_eraseIdx hget hjob
  constructor
  · intro hawaits
    exact ⟨hawaits.asked, hawaits.unauthenticated, fun hruns => hawaits.idle (hprogress.mpr hruns)⟩
  · intro hawaits
    exact ⟨hawaits.asked, hawaits.unauthenticated, fun hruns => hawaits.idle (hprogress.mp hruns)⟩

theorem Steady.alive (h : Steady [] page page') (halive : page.GateAlive) : page'.GateAlive := by
  apply gateAlive_iff.mpr
  intro hawaits
  rw [h.state]
  exact gateAlive_iff.mp halive (h.awaitsPassword hawaits)

theorem Steady.begun (h : Steady [] page page') (hbegun : page.Begun) : page'.Begun := by
  intro arrival hmem
  rw [h.arrived, List.append_nil] at hmem
  rw [h.sockets]
  exact hbegun arrival hmem

/-! ### What the functions do to it -/

/-- `runCovenant` goes on. It writes `state` when it ends, and until then it is in progress. -/
theorem alive_runCovenant (connection : Option Nat) (script : Script Keys) (hbegun : page.Begun) :
    (runCovenant connection script page).Begun ∧ (runCovenant connection script page).GateAlive := by
  induction script generalizing page with
  | done keys =>
      have hsteady := (undisturbed_receiveLoop
        { page with keys := some keys, txSeq := 0, rxSeq := 0, authenticated := true, state := .ready }
        connection).toSteady
      constructor
      · exact hsteady.begun hbegun
      · exact hsteady.alive (alive_of_state PageState.noConfusion)
  | raise error => exact ⟨hbegun, alive_refused⟩
  | send frame next ih => exact ih none ((steady_sendFrame page frame).begun hbegun)
  | recv next ih =>
      constructor
      · exact (undisturbed_nextFrame page _).toSteady.begun hbegun
      · apply alive_of_inProgress
        apply Plumbing.inProgress_iff.mpr
        exact .inl ⟨_, rfl, Plumbing.holds_nextFrame.mpr (.inr rfl)⟩

/-- `handshake` goes on. -/
theorem alive_acked (connection : Option Nat) (ack : Frame) (hbegun : page.Begun) :
    (page.acked connection ack).Begun ∧ ((page.acked connection ack).GateAlive ↔
      ¬(page.AwaitsPassword ∧ ∃ status serverName, ack = .helloAck status serverName true)) := by
  cases ack with
  | helloAck status serverName passwordRequired =>
      cases passwordRequired with
      | false =>
          have hsteady :=
            (undisturbed_receiveLoop { page with serverName, state := .ready } connection).toSteady
          refine ⟨hsteady.begun hbegun, iff_of_true (hsteady.alive (alive_of_state PageState.noConfusion)) ?_⟩
          rintro ⟨_, _, _, hack⟩
          cases hack
      | true =>
          refine ⟨hbegun, gateAlive_iff.trans ?_⟩
          constructor
          · rintro hstate ⟨hawaits, _⟩
            exact hstate ⟨hawaits.asked, hawaits.unauthenticated, hawaits.idle⟩ rfl
          · rintro hnot hawaits
            exact absurd ⟨⟨hawaits.asked, hawaits.unauthenticated, hawaits.idle⟩, status, serverName, rfl⟩ hnot
  | _ =>
      refine ⟨hbegun, iff_of_true (alive_fail _) ?_⟩
      rintro ⟨_, _, _, hack⟩
      cases hack

/-- `authenticate` is called. -/
theorem alive_authenticate (a : BigInt) (hbegun : page.Begun) (halive : page.GateAlive) :
    (page.authenticate browser grp a).Begun ∧ (page.authenticate browser grp a).GateAlive := by
  rw [authenticate]
  split
  · exact ⟨hbegun, halive⟩
  · dsimp only
    split
    · refine ⟨hbegun, alive_of_inProgress (.inr ⟨_, List.mem_append_right _ List.mem_cons_self, rfl⟩)⟩
    · exact ⟨hbegun, alive_refused⟩

/-- `connect` is called. -/
theorem alive_connect (accepted : Bool) (hbegun : page.Begun) :
    (page.connect accepted).Begun ∧ (page.connect accepted).GateAlive := by
  cases accepted with
  | false => exact ⟨hbegun, alive_fail _⟩
  | true =>
      refine ⟨?_, alive_of_state PageState.noConfusion⟩
      intro arrival hmem
      have hsame : (page.sockets ++ [.connecting])[arrival.connection]? = page.sockets[arrival.connection]? :=
        List.getElem?_append_left (hbegun.lt hmem)
      exact hsame.symm ▸ hbegun arrival hmem

/-- A socket closes. -/
theorem alive_onClose (connection : Nat) (hbegun : page.Begun) :
    (page.onClose connection).Begun ∧ (page.onClose connection).GateAlive := by
  constructor
  · exact hbegun.set (.inr rfl)
  · apply alive_of_state
    rw [onClose]
    by_cases herror : page.state = .error
    · simp [herror]
    · simp [herror]

/-- A socket opens, and `handshake` is called. No `HELLO_ACK` can have arrived on it. -/
theorem alive_handshake {connection : Nat} (timestamp : String)
    (hconnecting : page.sockets[connection]? = some .connecting) (hbegun : page.Begun)
    (halive : page.GateAlive) :
    ({ page with sockets := page.sockets.set connection .opened }.handshake connection timestamp).Begun ∧
      GateAlive
        ({ page with sockets := page.sockets.set connection .opened }.handshake connection timestamp) := by
  have hsteady : Steady [] { page with sockets := page.sockets.set connection .opened }
      ({ page with sockets := page.sockets.set connection .opened }.handshake connection timestamp) :=
    (steady_sendFrame _ _).trans (undisturbed_nextFrame _ _).toSteady
  constructor
  · exact hsteady.begun (hbegun.set (.inl rfl))
  · apply hsteady.alive
    apply gateAlive_iff.mpr
    intro hawaits
    apply gateAlive_iff.mp halive
    refine ⟨?_, hawaits.unauthenticated, hawaits.idle⟩
    obtain ⟨current, hws, hopened, status, serverName, harrived⟩ := hawaits.asked
    have hcurrent : current ≠ connection := by
      intro hsame
      rcases hbegun _ harrived with hsocket | hsocket
      · rw [hsame, hconnecting] at hsocket
        cases hsocket
      · rw [hsame, hconnecting] at hsocket
        cases hsocket
    have hsocket : (page.sockets.set connection .opened)[current]? = page.sockets[current]? :=
      List.getElem?_set_ne hcurrent.symm
    exact ⟨current, hws, hsocket.symm.trans hopened, status, serverName, harrived⟩

/-- A frame arrives. It may be the one that makes it the user's turn. -/
theorem alive_onFrame {connection : Nat} {frame : Frame} (hopened : page.sockets[connection]? = some .opened)
    (hbegun : page.Begun) (halive : page.GateAlive) :
    Plumbing.Begun { page with toPlumbing := page.onFrame { connection, frame } }.toPlumbing ∧
      (GateAlive { page with toPlumbing := page.onFrame { connection, frame } } ↔
        ¬ page.Stalls (.frame connection frame)) := by
  have hsteady : Steady [{ connection, frame }] page
      { page with toPlumbing := page.onFrame { connection, frame } } := (undisturbed_onFrame _).toSteady
  have hready := gateAlive_iff.mp halive
  constructor
  · intro arrival hmem
    rw [hsteady.arrived] at hmem
    rw [hsteady.sockets]
    rcases List.mem_append.mp hmem with hold | hnew
    · exact hbegun arrival hold
    · left
      rw [List.mem_singleton.mp hnew]
      exact hopened
  · apply gateAlive_iff.trans
    constructor
    · rintro hstate ⟨hcurrent, _, hauthenticated, hidle, hauthenticating, status, serverName, rfl⟩
      refine hstate ⟨⟨connection, ?_, ?_, status, serverName, ?_⟩, hauthenticated, ?_⟩ hauthenticating
      · exact hsteady.ws.trans hcurrent
      · rw [hsteady.sockets]
        exact hopened
      · rw [hsteady.arrived]
        exact List.mem_append_right _ List.mem_cons_self
      · exact fun hprogress => hidle (Plumbing.inProgress_onFrame.mp hprogress)
    · intro hnot hawaits hauthenticating
      have hidle : ¬ page.CovenantInProgress :=
        fun hprogress => hawaits.idle (Plumbing.inProgress_onFrame.mpr hprogress)
      obtain ⟨current, hcurrent, hsocket, status, serverName, hmem⟩ := hawaits.asked
      rw [hsteady.ws] at hcurrent
      rw [hsteady.sockets] at hsocket
      rw [hsteady.arrived] at hmem
      rcases List.mem_append.mp hmem with hold | hnew
      · exact hready
          ⟨⟨current, hcurrent, hsocket, status, serverName, hold⟩, hawaits.unauthenticated, hidle⟩
          hauthenticating
      · obtain ⟨rfl, rfl⟩ := Arrival.mk.inj (List.mem_singleton.mp hnew)
        exact hnot
          ⟨hcurrent, hsocket, hawaits.unauthenticated, hidle, hauthenticating, status, serverName, rfl⟩

/-- A job goes on that is neither a call of `handshake` nor one of `runCovenant`. -/
theorem alive_settle {position : Nat} {job : Job} (hget : page.jobs[position]? = some job)
    (hjob : job.isSealing = true ∨ job.receives = true) (hbegun : page.Begun) (halive : page.GateAlive) :
    (settle browser job { page with jobs := page.jobs.eraseIdx position }).Begun ∧
      (settle browser job { page with jobs := page.jobs.eraseIdx position }).GateAlive := by
  have hsteady : Steady [] { page with jobs := page.jobs.eraseIdx position }
      (settle browser job { page with jobs := page.jobs.eraseIdx position }) := steady_settle hjob
  have hkind : job.runsCovenant = false := by
    rcases hjob with hsealing | hreceives
    · cases job with
      | sealing text result => rfl
      | _ => cases hsealing
    · unfold Job.receives at hreceives
      split at hreceives
      · rfl
      · rfl
      · cases hreceives
  constructor
  · exact hsteady.begun hbegun
  · have hready := gateAlive_iff.mp halive
    apply hsteady.alive
    apply gateAlive_iff.mpr
    intro hawaits
    exact hready ((awaitsPassword_eraseIdx hget hkind).mp hawaits)

/-- A job goes on. Of the calls that read frames, `handshake` alone makes it the user's turn. -/
theorem alive_advance {position : Nat} {job : Job} (hget : page.jobs[position]? = some job)
    (hbegun : page.Begun) (halive : page.GateAlive) :
    (settle browser job { page with jobs := page.jobs.eraseIdx position }).Begun ∧
      ((settle browser job { page with jobs := page.jobs.eraseIdx position }).GateAlive ↔
        ¬ page.Stalls (.advance position)) := by
  have hother : (∀ connection frame, job ≠ .resumed { connection, resume := .handshake } frame) →
      (settle browser job { page with jobs := page.jobs.eraseIdx position }).Begun ∧
        (settle browser job { page with jobs := page.jobs.eraseIdx position }).GateAlive →
      (settle browser job { page with jobs := page.jobs.eraseIdx position }).Begun ∧
        ((settle browser job { page with jobs := page.jobs.eraseIdx position }).GateAlive ↔
          ¬ page.Stalls (.advance position)) := by
    rintro hjob ⟨hbegun', halive'⟩
    refine ⟨hbegun', iff_of_true halive' ?_⟩
    rintro ⟨_, connection, status, serverName, hhandshake⟩
    exact hjob connection _ (Option.some.inj (hget.symm.trans hhandshake))
  cases job with
  | resumed consumer frame =>
      obtain ⟨connection, resume⟩ := consumer
      cases resume with
      | handshake =>
          have hacked : ({ page with jobs := page.jobs.eraseIdx position }.acked connection frame).Begun ∧
              (({ page with jobs := page.jobs.eraseIdx position }.acked connection frame).GateAlive ↔
                ¬({ page with jobs := page.jobs.eraseIdx position }.AwaitsPassword ∧
                  ∃ status serverName, frame = .helloAck status serverName true)) :=
            alive_acked connection frame hbegun
          have hturn := awaitsPassword_eraseIdx hget rfl
          refine ⟨hacked.1, hacked.2.trans (not_congr ?_)⟩
          constructor
          · rintro ⟨hawaits, status, serverName, rfl⟩
            exact ⟨hturn.mp hawaits, connection, status, serverName, hget⟩
          · rintro ⟨hawaits, other, status, serverName, hjob⟩
            rw [hget] at hjob
            obtain ⟨_, rfl⟩ := Job.resumed.inj (Option.some.inj hjob)
            exact ⟨hturn.mpr hawaits, status, serverName, rfl⟩
      | runCovenant next => exact hother nofun (alive_runCovenant connection (next (.ok frame)) hbegun)
      | receiveLoop => exact hother nofun (alive_settle hget (.inr rfl) hbegun halive)
  | computing connection script => exact hother nofun (alive_runCovenant connection script hbegun)
  | opening connection seq result => exact hother nofun (alive_settle hget (.inr rfl) hbegun halive)
  | sealing text result => exact hother nofun (alive_settle hget (.inl rfl) hbegun halive)

/-- What a step does to a gate that is alive. -/
theorem alive_next {event : PageEvent} (hbegun : page.Begun) (halive : page.GateAlive)
    (hnext : page.next browser grp event = some page') :
    page'.Begun ∧ (page'.GateAlive ↔ ¬ page.Stalls event) := by
  have hkept : ∀ {other : Page}, ¬ page.Stalls event → other.Begun ∧ other.GateAlive →
      other.Begun ∧ (other.GateAlive ↔ ¬ page.Stalls event) :=
    fun hnot hboth => ⟨hboth.1, iff_of_true hboth.2 hnot⟩
  cases event with
  | init accepted =>
      obtain rfl := Option.some.inj hnext
      exact hkept not_false (alive_connect accepted hbegun)
  | timeout accepted =>
      rw [next] at hnext
      split at hnext
      · cases hnext
      · obtain rfl := Option.some.inj hnext
        exact hkept not_false (alive_connect accepted hbegun)
  | «open» connection timestamp =>
      rw [next] at hnext
      split at hnext
      · rename_i hconnecting
        obtain rfl := Option.some.inj hnext
        exact hkept not_false (alive_handshake timestamp hconnecting hbegun halive)
      · cases hnext
  | frame connection frame =>
      rw [next] at hnext
      split at hnext
      · rename_i hopened
        obtain rfl := Option.some.inj hnext
        exact alive_onFrame hopened hbegun halive
      · cases hnext
  | error connection =>
      rw [next] at hnext
      split at hnext
      · obtain rfl := Option.some.inj hnext
        exact hkept not_false ⟨hbegun, alive_fail _⟩
      · cases hnext
  | close connection =>
      rw [next] at hnext
      split at hnext
      · obtain rfl := Option.some.inj hnext
        exact hkept not_false (alive_onClose connection hbegun)
      · cases hnext
  | typePassword text =>
      obtain rfl := Option.some.inj hnext
      have hsteady : Steady [] page { page with password := text } := .of_same rfl rfl rfl rfl rfl rfl
      exact hkept not_false ⟨hbegun, hsteady.alive halive⟩
  | typeDraft text =>
      obtain rfl := Option.some.inj hnext
      have hsteady : Steady [] page { page with draft := text } := .of_same rfl rfl rfl rfl rfl rfl
      exact hkept not_false ⟨hbegun, hsteady.alive halive⟩
  | authenticate a =>
      obtain rfl := Option.some.inj hnext
      exact hkept not_false (alive_authenticate a hbegun halive)
  | send =>
      obtain rfl := Option.some.inj hnext
      have hsteady : Steady [] page (page.send browser) := steady_send page
      exact hkept not_false ⟨hsteady.begun hbegun, hsteady.alive halive⟩
  | advance position =>
      rw [next] at hnext
      split at hnext
      · rename_i job hget
        obtain rfl := Option.some.inj hnext
        exact alive_advance hget hbegun halive
      · cases hnext

/-- A step that leaves the gate dead is one that can happen. -/
theorem not_stalls_of_impossible {event : PageEvent} (hnone : page.next browser grp event = none) :
    ¬ page.Stalls event := by
  cases event with
  | frame connection frame =>
      rintro ⟨_, hopened, _⟩
      rw [next, if_pos hopened] at hnone
      cases hnone
  | advance position =>
      rintro ⟨_, connection, status, serverName, hjob⟩
      rw [next, hjob] at hnone
      cases hnone
  | _ => exact not_false

end Gate

end Page

end Ui

open Ui

/-- In a run of the page the gate is alive at every moment, if and only if no step reads or delivers a
`HELLO_ACK` that leaves it dead. -/
theorem gate_alive_iff (browser : Browser) (grp : ModpGroup) (userId : Int) (events : List PageEvent) :
    EventRuns.Throughout (Page.next browser grp) Page.GateAlive events (Page.loaded userId) ↔
      EventRuns.Each (Page.next browser grp) (fun page event => ¬ page.Stalls event) events
        (Page.loaded userId) := by
  have hstep : ∀ {page : Page} {event : PageEvent} {page' : Page}, page.Begun → page.GateAlive →
      page.next browser grp event = some page' → page'.Begun ∧ (page'.GateAlive ↔ ¬ page.Stalls event) :=
    fun hbegun halive hnext => Page.alive_next hbegun halive hnext
  have hbegun : (Page.loaded userId).Begun := List.forall_mem_nil _
  have halive : (Page.loaded userId).GateAlive := Page.alive_of_state PageState.noConfusion
  exact EventRuns.throughout_iff hstep Page.not_stalls_of_impossible events hbegun halive

/-- The first connection to a node with a password: once `handshake` has read the `HELLO_ACK`, the gate is
shown, nothing is being verified, and neither the field nor the button can be used. -/
theorem gate_dead_at_first_ack : ∃ page : Page,
    (Page.loaded 7).runEvents sampleBrowser Ui.group
      [.init true, .open 0 "2024-01-01T00:00:00.000Z", .frame 0 (.helloAck "active" "Node" true),
        .advance 0] = some page ∧
      page.AwaitsPassword ∧ page.gateShown = true ∧ page.fieldEnabled = false ∧
      ∀ text, { page with password := text }.enterEnabled = false := by
  have hrun : ∃ page : Page,
      (Page.loaded 7).runEvents sampleBrowser Ui.group
        [.init true, .open 0 "2024-01-01T00:00:00.000Z", .frame 0 (.helloAck "active" "Node" true),
          .advance 0] = some page ∧
        page.AwaitsPassword ∧ page.gateShown = true ∧ page.state = .authenticating := by
    refine ⟨_, rfl, ⟨⟨0, rfl, rfl, "active", "Node", List.mem_cons_self⟩, rfl, ?_⟩, rfl, rfl⟩
    rintro (⟨_, hwaits, _⟩ | ⟨_, hjob, _⟩)
    · cases hwaits
    · cases hjob
  obtain ⟨page, hpage, hawaits, hshown, hstate⟩ := hrun
  refine ⟨page, hpage, hawaits, hshown, ?_, ?_⟩
  · rw [Page.fieldEnabled, hstate]
    rfl
  · intro text
    simp [Page.enterEnabled, hstate]

end Priestly
