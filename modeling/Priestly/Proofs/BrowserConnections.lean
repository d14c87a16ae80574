/-
Module: Priestly.Proofs.BrowserConnections
Layer: Proofs
Purpose: Two invariants of the page over all its runs. It keeps its connections: every socket that it loses is
  replaced by one call of `connect`, so that of a page that is initialised once one socket at most is alive,
  the newest. And it never falls back: it comes by session keys only where the browser provides the `enc` that
  `authenticate` calls, and once it has them it writes no chat message in the clear, on whatever connection, to
  whatever node.
Imports: Priestly.Lib.Exchanges, Priestly.Proofs.BrowserCalls, Priestly.Proofs.PasswordBinding
Trusted boundary: none
Main exports: Plumbing.Calls, Page.Within, within_settle, Page.Keyless, one_connection, no_fallback
-/
import Priestly.Lib.Exchanges
import Priestly.Proofs.BrowserCalls
import Priestly.Proofs.PasswordBinding

namespace Priestly

namespace Ui

open Interaction Js

/-! ### What a script writes -/

/-- A chat message in the clear. -/
def IsPlain : Frame → Prop
  | .chat _ _ => True
  | _ => False

/-- The frame is no chat message in the clear. -/
def NotPlain (frame : Frame) : Prop := ¬ IsPlain frame

/-- `runCovenant` writes the two frames of the handshake. -/
theorem writes_runCovenant (grp : ModpGroup) (mac : Mac) (a : BigInt) (pwBytes : ByteCodec.Bytes) :
    (Ui.runCovenant grp mac a pwBytes).Writes NotPlain := by
  apply Program.Writes.bind (Program.Writes.emit id)
  intro _
  apply Program.Writes.bind Program.Writes.await
  intro challenge
  cases challenge with
  | covenantChallenge maskedB =>
      apply Program.Writes.bind (Program.Writes.lift _)
      intro pe
      apply Program.Writes.bind (Program.Writes.lift _)
      intro inverse
      apply Program.Writes.bind (Program.Writes.lift _)
      intro confirmC
      apply Program.Writes.bind (Program.Writes.emit id)
      intro _
      apply Program.Writes.bind Program.Writes.await
      exact fun verdict => Program.Writes.lift _
  | _ => exact trivial

/-- A call that is waiting for a frame goes on as such a script. -/
def Consumer.Safe (consumer : Consumer) : Prop :=
  ∀ next, consumer.resume = .runCovenant next → ∀ input, (next input).Writes NotPlain

/-- So does a call that goes on later. -/
def Job.Safe : Job → Prop
  | .resumed consumer _ => consumer.Safe
  | .computing _ script => script.Writes NotPlain
  | .opening _ _ _ => True
  | .sealing _ _ => True

/-- Every call of the page is such, where it goes on, whatever frame it has waited for. -/
structure Plumbing.Calls (such : Job → Prop) (page : Plumbing) : Prop where
  waiting : ∀ consumer ∈ page.mail.waiters, ∀ frame, such (.resumed consumer frame)
  going : ∀ job ∈ page.jobs, such job

namespace Plumbing.Calls

variable {such : Job → Prop} {page : Plumbing}

theorem nextFrame (h : page.Calls such) {consumer : Consumer} (hreader : ∀ frame, such (.resumed consumer frame)) :
    (page.nextFrame consumer).Calls such := by
  obtain ⟨hwaiting, hgoing⟩ := h
  rw [nextFrame_eq]
  rcases page.mail.take_cases consumer with ⟨arrival, hgiven, _, hwait, _⟩ | ⟨hnone, _, _, hwait, _⟩
  · constructor
    · intro waiter hwaiter
      rw [hwait] at hwaiter
      exact hwaiting waiter hwaiter
    · intro job hjob
      rcases List.mem_append.mp hjob with hold | hnew
      · exact hgoing job hold
      · rw [hgiven] at hnew
        obtain rfl := List.mem_singleton.mp hnew
        exact hreader arrival.frame
  · constructor
    · intro waiter hwaiter
      rw [hwait] at hwaiter
      rcases List.mem_append.mp hwaiter with hold | hnew
      · exact hwaiting waiter hold
      · obtain rfl := List.mem_singleton.mp hnew
        exact hreader
    · intro job hjob
      rcases List.mem_append.mp hjob with hold | hnew
      · exact hgoing job hold
      · rw [hnone] at hnew
        exact absurd hnew List.not_mem_nil

/-- The arrival of a frame hands it to a call that was waiting, or keeps it. -/
theorem onFrame (h : page.Calls such) (arrival : Arrival) : (page.onFrame arrival).Calls such := by
  obtain ⟨hwaiting, hgoing⟩ := h
  rw [onFrame_eq]
  rcases page.mail.put_cases arrival with ⟨waiter, hwoken, hwaits, _⟩ | ⟨hnone, _, hwaits, _⟩
  · rw [hwaits] at hwaiting
    constructor
    · exact fun consumer hconsumer => hwaiting consumer (List.mem_cons_of_mem _ hconsumer)
    · intro job hjob
      rcases List.mem_append.mp hjob with hold | hnew
      · exact hgoing job hold
      · rw [hwoken] at hnew
        obtain rfl := List.mem_singleton.mp hnew
        exact hwaiting waiter List.mem_cons_self arrival.frame
  · constructor
    · intro consumer hconsumer
      rw [hwaits] at hconsumer
      exact absurd hconsumer List.not_mem_nil
    · intro job hjob
      rcases List.mem_append.mp hjob with hold | hnew
      · exact hgoing job hold
      · rw [hnone] at hnew
        exact absurd hnew List.not_mem_nil

theorem spawn (h : page.Calls such) {job : Job} (hjob : such job) : (page.spawn job).Calls such := by
  refine ⟨h.waiting, ?_⟩
  intro other hother
  rcases List.mem_append.mp hother with hold | hnew
  · exact h.going other hold
  · obtain rfl := List.mem_singleton.mp hnew
    exact hjob

theorem sendFrame (h : page.Calls such) (frame : Frame) : (page.sendFrame frame).Calls such := by
  obtain ⟨sent, hsent⟩ := sendFrame_eq page frame
  rw [hsent]
  exact ⟨h.waiting, h.going⟩

/-- A job leaves the list. -/
theorem eraseJob (h : page.Calls such) (position : Nat) :
    { page with jobs := page.jobs.eraseIdx position }.Calls such :=
  ⟨h.waiting, fun job hjob => h.going job (List.mem_of_mem_eraseIdx hjob)⟩

end Plumbing.Calls

/-- The calls of the page write no chat message in the clear by themselves. -/
def Plumbing.Safe (page : Plumbing) : Prop := page.Calls Job.Safe

/-! ### What happens within a connection -/

namespace Page

/-- The sockets and the timers are as before; what was written went out on the current connection, which is
open; keys are kept, and with keys nothing was written in the clear. -/
structure Within (page page' : Page) : Prop where
  ws : page'.ws = page.ws
  sockets : page'.sockets = page.sockets
  timers : page'.timers = page.timers
  arrived : page'.mail.arrived = page.mail.arrived
  keys : page.keys.isSome = true → page'.keys.isSome = true
  safe : page.Safe → page'.Safe
  sent : ∃ more : List (Nat × Frame), page'.sent = page.sent ++ more ∧ ∀ entry ∈ more,
    page.ws = some entry.1 ∧ page.sockets[entry.1]? = some .opened ∧
      (page.keys.isSome = true → NotPlain entry.2)

section Within

variable {browser : Browser} {grp : ModpGroup} {page page' page'' : Page} {connection : Option Nat}

/-- Functions that touch the other fields only. -/
theorem Within.of_same (hplumbing : page'.toPlumbing = page.toPlumbing)
    (hkeys : page.keys.isSome = true → page'.keys.isSome = true) : Within page page' where
  ws := by rw [hplumbing]
  sockets := by rw [hplumbing]
  timers := by rw [hplumbing]
  arrived := by rw [hplumbing]
  keys := hkeys
  safe := by
    intro h
    rw [hplumbing]
    exact h
  sent := by
    refine ⟨[], ?_, fun entry hentry => absurd hentry List.not_mem_nil⟩
    rw [hplumbing, List.append_nil]

theorem Within.refl (page : Page) : Within page page := .of_same rfl id

theorem Within.trans (h : Within page page') (h' : Within page' page'') : Within page page'' where
  ws := h'.ws.trans h.ws
  sockets := h'.sockets.trans h.sockets
  timers := h'.timers.trans h.timers
  arrived := h'.arrived.trans h.arrived
  keys := fun hkeys => h'.keys (h.keys hkeys)
  safe := fun hsafe => h'.safe (h.safe hsafe)
  sent := by
    obtain ⟨more, hsent, hmore⟩ := h.sent
    obtain ⟨more', hsent', hmore'⟩ := h'.sent
    refine ⟨more ++ more', by rw [hsent', hsent, List.append_assoc], ?_⟩
    intro entry hentry
    rcases List.mem_append.mp hentry with hold | hnew
    · exact hmore entry hold
    · obtain ⟨hws, hopened, hplain⟩ := hmore' entry hnew
      rw [h.ws] at hws
      rw [h.sockets] at hopened
      exact ⟨hws, hopened, fun hkeys => hplain (h.keys hkeys)⟩

/-- A function asks for a frame. -/
theorem within_nextFrame {consumer : Consumer} (hsafe : consumer.Safe) (page : Page) :
    Within page (page.nextFrame consumer) := by
  rw [nextFrame, Plumbing.nextFrame_eq]
  constructor
  case ws | sockets | timers => rfl
  case arrived => exact Mailbox.arrived_take _ _
  case keys => exact id
  case safe =>
    intro h
    rw [← Plumbing.nextFrame_eq]
    exact h.nextFrame fun _ => hsafe
  case sent => exact ⟨[], (List.append_nil _).symm, fun entry hentry => absurd hentry List.not_mem_nil⟩

/-- A frame that is no chat message in the clear is written. -/
theorem within_sendFrame {frame : Frame} (hframe : page.keys.isSome = true → NotPlain frame) :
    Within page (page.sendFrame frame) := by
  rw [sendFrame, Plumbing.sendFrame]
  split
  · exact .refl page
  · rename_i connection hws
    split
    · rename_i hopened
      constructor
      case ws | sockets | timers | arrived => rfl
      case keys => exact id
      case safe => exact fun h => ⟨h.waiting, h.going⟩
      case sent =>
        refine ⟨[(connection, frame)], rfl, ?_⟩
        intro entry hentry
        obtain rfl := List.mem_singleton.mp hentry
        exact ⟨hws, hopened, hframe⟩
    · exact .refl page

/-- A call goes on later. -/
theorem within_spawn (page : Page) (job : Job) (hjob : job.Safe) : Within page (page.spawn job) where
  ws := rfl
  sockets := rfl
  timers := rfl
  arrived := rfl
  keys := id
  safe := fun h => Plumbing.Calls.spawn h hjob
  sent := ⟨[], (List.append_nil _).symm, fun _ hentry => absurd hentry List.not_mem_nil⟩

/-- A reader that runs no script. -/
theorem safe_reader {resume : Resumption} (h : ∀ next, resume ≠ .runCovenant next) (connection : Option Nat) :
    Consumer.Safe { connection, resume } := fun next hnext => absurd hnext (h next)

theorem within_receiveLoop (page : Page) (connection : Option Nat) :
    Within page (page.receiveLoop connection) := by
  rw [receiveLoop]
  split
  · exact within_nextFrame (safe_reader (fun _ => Resumption.noConfusion) connection) page
  · exact .refl page

theorem within_acked (page : Page) (connection : Option Nat) (ack : Frame) :
    Within page (page.acked connection ack) := by
  cases ack with
  | helloAck status serverName passwordRequired =>
      cases passwordRequired with
      | false =>
          have hsame : Within page { page with serverName, state := .ready } := .of_same rfl id
          exact hsame.trans (within_receiveLoop _ connection)
      | true => exact .of_same rfl id
  | _ => exact .of_same rfl id

/-- A script that writes no chat message goes on. -/
theorem within_runCovenant (connection : Option Nat) (script : Script Keys) (hscript : script.Writes NotPlain)
    (page : Page) : Within page (runCovenant connection script page) := by
  induction script generalizing page with
  | done keys =>
      have hsame : Within page
          { page with keys := some keys, txSeq := 0, rxSeq := 0, authenticated := true, state := .ready } :=
        .of_same rfl fun _ => rfl
      exact hsame.trans (within_receiveLoop _ connection)
  | raise error => exact .of_same rfl id
  | send frame next ih =>
      exact (within_sendFrame fun _ => hscript.1).trans (ih none (hscript.2 none) _)
  | recv next ih =>
      apply within_nextFrame
      intro other hother input
      obtain rfl := Resumption.runCovenant.inj hother
      exact hscript input

theorem within_authenticate (page : Page) (a : BigInt) : Within page (page.authenticate browser grp a) := by
  rw [authenticate]
  split
  · exact .refl page
  · have hsame : Within page { page with state := .authenticating, error := "" } := .of_same rfl id
    dsimp only
    split
    · exact hsame.trans (within_spawn _ _ (writes_runCovenant grp browser.hmac a _))
    · exact .of_same rfl id

theorem within_received (page : Page) (connection : Option Nat) (frame : Frame) :
    Within page (page.received browser connection frame) := by
  cases frame with
  | chat text sender =>
      have hsame : Within page (page.addMessage (some (.string text)) (some (.string sender)) "incoming") :=
        .of_same rfl id
      exact hsame.trans (within_receiveLoop _ connection)
  | «sealed» frame => exact within_spawn page _ trivial
  | error code reason =>
      have hsame : Within page { page with error := if reason = "" then "Server error." else reason } :=
        .of_same rfl id
      exact hsame.trans (within_receiveLoop _ connection)
  | _ => exact within_receiveLoop page connection

theorem within_opened (page : Page) (connection : Option Nat) (seq : Int) (result : Except JsError Json) :
    Within page (page.opened connection seq result) := by
  cases result with
  | error error => exact within_receiveLoop page connection
  | ok obj =>
      rw [opened]
      split
      · rename_i text sender _
        have hsame : Within page ({ page with rxSeq := seq }.addMessage text sender "incoming") := .of_same rfl id
        exact hsame.trans (within_receiveLoop _ connection)
      · have hsame : Within page { page with rxSeq := seq } := .of_same rfl id
        exact hsame.trans (within_receiveLoop _ connection)

theorem within_sendDone (page : Page) (text : String) : Within page (page.sendDone text) := .of_same rfl id

/-- `send` is called. In the clear it writes only without keys. -/
theorem within_send (page : Page) : Within page (page.send browser) := by
  rw [send]
  dsimp only
  split
  · exact .refl page
  · split
    · rename_i keys hkeys
      have hsame : Within page { page with txSeq := toNumber (page.txSeq + 1) } := .of_same rfl id
      exact hsame.trans (within_spawn _ _ trivial)
    · rename_i hkeys
      have hwrite : Within page (page.sendFrame (.chat (trim page.draft) "browser")) := by
        apply within_sendFrame
        intro hsome
        rw [hkeys] at hsome
        cases hsome
      exact hwrite.trans (within_sendDone _ _)

/-- A call goes on. -/
theorem within_settle {job : Job} (hjob : job.Safe) (page : Page) : Within page (settle browser job page) := by
  cases job with
  | resumed consumer frame =>
      obtain ⟨reader, resume⟩ := consumer
      cases resume with
      | handshake => exact within_acked page reader frame
      | runCovenant next => exact within_runCovenant reader _ (hjob next rfl _) page
      | receiveLoop => exact within_received page reader frame
  | computing reader script => exact within_runCovenant reader script hjob page
  | opening reader seq result => exact within_opened page reader seq result
  | sealing text result =>
      cases result with
      | error error => exact .refl page
      | ok frame =>
          have hplain : NotPlain (.sealed frame) := id
          exact (within_sendFrame fun _ => hplain).trans (within_sendDone _ _)

end Within

end Page

/-! ### The wiring -/

/-- The part of a page that connects it: what is left of it when nothing is asked but which sockets there are. -/
structure Wiring where
  ws : Option Nat
  sockets : List Socket
  timers : Nat
  /-- The connections that frames have arrived on. -/
  arrived : List Nat
deriving DecidableEq, Repr

namespace Wiring

/-- A call of `connect`. -/
def connect (accepted : Bool) (wiring : Wiring) : Wiring :=
  if accepted then
    { wiring with ws := some wiring.sockets.length, sockets := wiring.sockets ++ [.connecting] }
  else wiring

/-- What an event does to the wiring; `none` where it cannot happen. -/
def next (wiring : Wiring) : PageEvent → Option Wiring
  | .init accepted => some (wiring.connect accepted)
  | .timeout accepted =>
      if wiring.timers = 0 then none
      else some ({ wiring with timers := wiring.timers - 1 }.connect accepted)
  | .open connection _ =>
      if wiring.sockets[connection]? = some .connecting then
        some { wiring with sockets := wiring.sockets.set connection .opened }
      else none
  | .frame connection _ =>
      if wiring.sockets[connection]? = some .opened then
        some { wiring with arrived := wiring.arrived ++ [connection] }
      else none
  | .error connection =>
      if wiring.sockets[connection]? = some .connecting ∨ wiring.sockets[connection]? = some .opened then
        some wiring
      else none
  | .close connection =>
      if wiring.sockets[connection]? = some .connecting ∨ wiring.sockets[connection]? = some .opened then
        some { wiring with
          sockets := wiring.sockets.set connection .closed
          timers := wiring.timers + 1 }
      else none
  | _ => some wiring

end Wiring

namespace Page

/-- The wiring of a page. -/
def wiring (page : Page) : Wiring where
  ws := page.ws
  sockets := page.sockets
  timers := page.timers
  arrived := page.mail.arrived.map Arrival.connection

section Steps

variable {browser : Browser} {grp : ModpGroup} {page page' : Page}

theorem Within.wiring_eq (h : Within page page') : page'.wiring = page.wiring := by
  rw [wiring, wiring, h.ws, h.sockets, h.timers, h.arrived]

/-- What one event can do to a page: it is a step of the wiring, the calls stay safe, keys are kept, and what is
written goes out on the current connection, with keys not in the clear. -/
structure Steps (event : PageEvent) (page page' : Page) : Prop where
  wiring : page.wiring.next event = some page'.wiring
  safe : page'.Safe
  keys : page.keys.isSome = true → page'.keys.isSome = true
  sent : ∃ more : List (Nat × Frame), page'.sent = page.sent ++ more ∧ ∀ entry ∈ more,
    page'.ws = some entry.1 ∧ (page.keys.isSome = true → NotPlain entry.2)

/-- An event that changes the wiring and then runs a function within it. -/
theorem Steps.of_within {event : PageEvent} {middle : Page} (hwiring : page.wiring.next event = some middle.wiring)
    (hsafe : middle.Safe) (hkeys : middle.keys = page.keys) (hsent : middle.sent = page.sent)
    (h : Within middle page') : Steps event page page' where
  wiring := by rw [h.wiring_eq, hwiring]
  safe := h.safe hsafe
  keys := by
    rw [← hkeys]
    exact h.keys
  sent := by
    obtain ⟨more, hmore, hentries⟩ := h.sent
    refine ⟨more, by rw [hmore, hsent], ?_⟩
    intro entry hentry
    obtain ⟨hws, _, hplain⟩ := hentries entry hentry
    rw [hkeys] at hplain
    exact ⟨h.ws.trans hws, hplain⟩

/-- `connect`, with the timer it was called by. -/
theorem steps_connect {event : PageEvent} {timers : Nat} (accepted : Bool) (hsafe : page.Safe)
    (hwiring : page.wiring.next event = some ({ page.wiring with timers }.connect accepted)) :
    Steps event page ({ page with timers }.connect accepted) := by
  have hconnect : ({ page with timers }.connect accepted).wiring = { page.wiring with timers }.connect accepted := by
    cases accepted with
    | true => rfl
    | false => rfl
  rw [← hconnect] at hwiring
  cases accepted with
  | true => exact .of_within hwiring ⟨hsafe.waiting, hsafe.going⟩ rfl rfl (.refl _)
  | false => exact .of_within hwiring ⟨hsafe.waiting, hsafe.going⟩ rfl rfl (.refl _)

/-- Every event is such a step. -/
theorem steps_next {event : PageEvent} (hsafe : page.Safe) (h : page.next browser grp event = some page') :
    Steps event page page' := by
  cases event with
  | init accepted =>
      obtain rfl := Option.some.inj h
      exact steps_connect accepted hsafe rfl
  | timeout accepted =>
      rw [next] at h
      split at h
      · cases h
      · rename_i htimers
        obtain rfl := Option.some.inj h
        apply steps_connect accepted hsafe
        exact if_neg htimers
  | «open» connection timestamp =>
      rw [next] at h
      split at h
      · rename_i hconnecting
        obtain rfl := Option.some.inj h
        have hwiring : page.wiring.next (.open connection timestamp) =
            some { page with sockets := page.sockets.set connection .opened }.wiring := if_pos hconnecting
        apply Steps.of_within hwiring ⟨hsafe.waiting, hsafe.going⟩ rfl rfl
        have hhello : ∀ handshake, NotPlain (.hello handshake) := fun _ => id
        apply Within.trans (within_sendFrame fun _ => hhello _)
        exact within_nextFrame (safe_reader (fun _ => Resumption.noConfusion) _) _
      · cases h
  | frame connection frame =>
      rw [next] at h
      split at h
      · rename_i hopened
        obtain rfl := Option.some.inj h
        have hwiring : page.wiring.next (.frame connection frame) =
            some (wiring { page with toPlumbing := page.toPlumbing.onFrame { connection, frame } }) := by
          refine (if_pos hopened).trans ?_
          rw [Plumbing.onFrame_eq]
          simp [wiring]
        exact .of_within hwiring (hsafe.onFrame _) rfl (by rw [Plumbing.onFrame_eq]) (.refl _)
      · cases h
  | error connection =>
      rw [next] at h
      split at h
      · rename_i hlive
        obtain rfl := Option.some.inj h
        have hwiring : page.wiring.next (.error connection) = some page.wiring := if_pos hlive
        exact .of_within hwiring hsafe rfl rfl (.of_same rfl id)
      · cases h
  | close connection =>
      rw [next] at h
      split at h
      · rename_i hlive
        obtain rfl := Option.some.inj h
        have hwiring : page.wiring.next (.close connection) = some (page.onClose connection).wiring := if_pos hlive
        exact .of_within hwiring ⟨hsafe.waiting, hsafe.going⟩ rfl rfl (.refl _)
      · cases h
  | typePassword text | typeDraft text =>
      obtain rfl := Option.some.inj h
      exact .of_within rfl hsafe rfl rfl (.of_same rfl id)
  | authenticate a =>
      obtain rfl := Option.some.inj h
      exact .of_within rfl hsafe rfl rfl (within_authenticate page a)
  | send =>
      obtain rfl := Option.some.inj h
      exact .of_within rfl hsafe rfl rfl (within_send page)
  | advance position =>
      rw [next] at h
      split at h
      · rename_i job hget
        obtain rfl := Option.some.inj h
        have hwiring : page.wiring.next (.advance position) =
            some { page with jobs := page.jobs.eraseIdx position }.wiring := rfl
        exact .of_within hwiring (hsafe.eraseJob position) rfl rfl
          (within_settle (hsafe.going job (List.mem_of_getElem? hget)) _)
      · cases h

end Steps

end Page

/-! ### Without `enc` -/

/-- A call of `runCovenant`, which may come by keys. -/
def Job.FindsKeys : Job → Prop
  | .resumed ⟨_, .runCovenant _⟩ _ => True
  | .computing _ _ => True
  | _ => False

namespace Page

/-- The page has no keys, and none of its calls is about to find some. -/
structure Keyless (page : Page) : Prop where
  keys : page.keys = none
  calls : page.Calls fun job => ¬ job.FindsKeys

namespace Keyless

variable {browser : Browser} {grp : ModpGroup} {page page' : Page}

theorem receiveLoop (h : page.Keyless) (connection : Option Nat) : (page.receiveLoop connection).Keyless := by
  rw [Page.receiveLoop]
  split
  · exact ⟨h.keys, h.calls.nextFrame fun _ => id⟩
  · exact h

theorem acked (h : page.Keyless) (connection : Option Nat) (ack : Frame) : (page.acked connection ack).Keyless := by
  cases ack with
  | helloAck status serverName passwordRequired =>
      cases passwordRequired with
      | false =>
          have hready : { page with serverName, state := .ready }.Keyless := ⟨h.keys, h.calls⟩
          exact hready.receiveLoop connection
      | true => exact ⟨h.keys, h.calls⟩
  | _ => exact ⟨h.keys, h.calls⟩

theorem received (h : page.Keyless) (connection : Option Nat) (frame : Frame) :
    (page.received browser connection frame).Keyless := by
  cases frame with
  | chat text sender =>
      have hshown : (page.addMessage (some (.string text)) (some (.string sender)) "incoming").Keyless :=
        ⟨h.keys, h.calls⟩
      exact hshown.receiveLoop connection
  | «sealed» frame => exact ⟨h.keys, h.calls.spawn id⟩
  | error code reason =>
      have hshown : { page with error := if reason = "" then "Server error." else reason }.Keyless :=
        ⟨h.keys, h.calls⟩
      exact hshown.receiveLoop connection
  | _ => exact h.receiveLoop connection

theorem opened (h : page.Keyless) (connection : Option Nat) (seq : Int) (result : Except JsError Json) :
    (page.opened connection seq result).Keyless := by
  cases result with
  | error error => exact h.receiveLoop connection
  | ok obj =>
      have hseq : { page with rxSeq := seq }.Keyless := ⟨h.keys, h.calls⟩
      rw [Page.opened]
      split
      · rename_i text sender _
        have hshown : ({ page with rxSeq := seq }.addMessage text sender "incoming").Keyless := ⟨h.keys, h.calls⟩
        exact hshown.receiveLoop connection
      · exact hseq.receiveLoop connection

theorem send (h : page.Keyless) : (page.send browser).Keyless := by
  rw [Page.send]
  dsimp only
  split
  · exact h
  · rw [h.keys]
    exact ⟨h.keys, h.calls.sendFrame _⟩

/-- `enc` throws, and `runCovenant` is not called. -/
theorem authenticate (h : page.Keyless) (henc : browser.globals.lookup "enc" = none) (a : BigInt) :
    (page.authenticate browser grp a).Keyless := by
  rw [Page.authenticate]
  split
  · exact h
  · dsimp only
    rw [encode_of_none henc]
    exact ⟨h.keys, h.calls⟩

/-- A call goes on. -/
theorem settle (h : page.Keyless) {job : Job} (hjob : ¬ job.FindsKeys) : (settle browser job page).Keyless := by
  cases job with
  | resumed consumer frame =>
      obtain ⟨connection, resume⟩ := consumer
      cases resume with
      | handshake => exact h.acked connection frame
      | runCovenant next => exact absurd trivial hjob
      | receiveLoop => exact h.received connection frame
  | computing connection script => exact absurd trivial hjob
  | opening connection seq result => exact h.opened connection seq result
  | sealing text result =>
      cases result with
      | error error => exact h
      | ok frame => exact ⟨h.keys, h.calls.sendFrame _⟩

/-- Every event keeps the page without keys. -/
theorem next (h : page.Keyless) (henc : browser.globals.lookup "enc" = none) {event : PageEvent}
    (hnext : page.next browser grp event = some page') : page'.Keyless := by
  have hconnect : ∀ (timers : Nat) (accepted : Bool), ({ page with timers }.connect accepted).Keyless := by
    intro timers accepted
    cases accepted with
    | true => exact ⟨h.keys, h.calls.waiting, h.calls.going⟩
    | false => exact ⟨h.keys, h.calls.waiting, h.calls.going⟩
  cases event with
  | init accepted =>
      obtain rfl := Option.some.inj hnext
      exact hconnect page.timers accepted
  | timeout accepted =>
      rw [Page.next] at hnext
      split at hnext
      · cases hnext
      · obtain rfl := Option.some.inj hnext
        exact hconnect (page.timers - 1) accepted
  | «open» connection timestamp =>
      rw [Page.next] at hnext
      split at hnext
      · obtain rfl := Option.some.inj hnext
        have hcalls : { page.toPlumbing with sockets := page.sockets.set connection .opened }.Calls
            fun job => ¬ job.FindsKeys := ⟨h.calls.waiting, h.calls.going⟩
        exact ⟨h.keys, (hcalls.sendFrame _).nextFrame fun _ => id⟩
      · cases hnext
  | frame connection frame =>
      rw [Page.next] at hnext
      split at hnext
      · obtain rfl := Option.some.inj hnext
        exact ⟨h.keys, h.calls.onFrame _⟩
      · cases hnext
  | error connection =>
      rw [Page.next] at hnext
      split at hnext
      · obtain rfl := Option.some.inj hnext
        exact ⟨h.keys, h.calls⟩
      · cases hnext
  | close connection =>
      rw [Page.next] at hnext
      split at hnext
      · obtain rfl := Option.some.inj hnext
        exact ⟨h.keys, h.calls.waiting, h.calls.going⟩
      · cases hnext
  | typePassword text | typeDraft text =>
      obtain rfl := Option.some.inj hnext
      exact ⟨h.keys, h.calls⟩
  | authenticate a =>
      obtain rfl := Option.some.inj hnext
      exact h.authenticate henc a
  | send =>
      obtain rfl := Option.some.inj hnext
      exact h.send
  | advance position =>
      rw [Page.next] at hnext
      split at hnext
      · rename_i job hjob
        obtain rfl := Option.some.inj hnext
        have herased : { page with jobs := page.jobs.eraseIdx position }.Keyless := ⟨h.keys, h.calls.eraseJob position⟩
        exact herased.settle (h.calls.going job (List.mem_of_getElem? hjob))
      · cases hnext

/-- So does a run. -/
theorem run (henc : browser.globals.lookup "enc" = none) {events : List PageEvent} (h : page.Keyless)
    (hrun : page.runEvents browser grp events = some page') : page'.Keyless := by
  induction events generalizing page with
  | nil =>
      obtain rfl := Option.some.inj hrun
      exact h
  | cons event events ih =>
      obtain ⟨middle, hnext, hrest⟩ := Option.bind_eq_some_iff.mp hrun
      exact ih (h.next henc hnext) hrest

end Keyless

end Page

/-! ### One connection -/

/-- The framework initialises the component. -/
def PageEvent.starts : PageEvent → Bool
  | .init _ => true
  | _ => false

/-- The constructor of a socket throws. -/
def PageEvent.rejects : PageEvent → Bool
  | .init accepted => !accepted
  | .timeout accepted => !accepted
  | _ => false

namespace Wiring

/-- How many sockets have not been closed. -/
def live (wiring : Wiring) : Nat := wiring.sockets.countP fun socket => socket ≠ .closed

/-- The current socket is the newest, the others are closed, and frames have arrived in the order of the
connections. -/
structure Single (wiring : Wiring) : Prop where
  newest : ∀ connection, wiring.ws = some connection ↔ connection + 1 = wiring.sockets.length
  older : ∀ connection, connection + 1 < wiring.sockets.length → wiring.sockets[connection]? = some .closed
  arrived : wiring.arrived.Pairwise (· ≤ ·)
  known : ∀ connection ∈ wiring.arrived, connection < wiring.sockets.length

section Events

variable {wiring wiring' : Wiring}

/-- A socket that its constructor has made is alive. -/
theorem live_connect (wiring : Wiring) : (wiring.connect true).live = wiring.live + 1 := by
  show (wiring.sockets ++ [Socket.connecting]).countP _ = _
  rw [List.countP_append]
  rfl

/-- A socket that was not closed changes. -/
theorem live_set {connection : Nat} {before : Socket} (hget : wiring.sockets[connection]? = some before)
    (hbefore : before ≠ .closed) (after : Socket) :
    live { wiring with sockets := wiring.sockets.set connection after } + 1 =
      wiring.live + (if after ≠ .closed then 1 else 0) := by
  obtain ⟨hlt, hget⟩ := List.getElem?_eq_some_iff.mp hget
  have hpositive : 0 < wiring.live := List.countP_pos_iff.mpr ⟨before, hget ▸ List.getElem_mem hlt, by simpa⟩
  have hcount := List.countP_set (p := fun socket : Socket => decide (socket ≠ .closed)) (a := after) hlt
  rw [hget, if_pos (decide_eq_true hbefore)] at hcount
  rw [live] at hpositive
  rw [live, live, hcount]
  simp only [decide_eq_true_eq]
  omega

/-- Every socket that is lost is paid for by a timer, and every timer by a socket, unless its constructor
throws. -/
theorem next_balance {event : PageEvent} (h : wiring.next event = some wiring') :
    wiring'.live + wiring'.timers + (if event.rejects then 1 else 0) =
      wiring.live + wiring.timers + (if event.starts then 1 else 0) := by
  cases event with
  | init accepted =>
      obtain rfl := Option.some.inj h
      cases accepted with
      | true =>
          have hlive := live_connect wiring
          show (wiring.connect true).live + wiring.timers + 0 = wiring.live + wiring.timers + 1
          omega
      | false => rfl
  | timeout accepted =>
      rw [next] at h
      split at h
      · cases h
      · obtain rfl := Option.some.inj h
        cases accepted with
        | true =>
            have hlive := live_connect { wiring with timers := wiring.timers - 1 }
            show (connect true { wiring with timers := wiring.timers - 1 }).live + (wiring.timers - 1) + 0 =
              wiring.live + wiring.timers + 0
            rw [hlive]
            show wiring.live + 1 + (wiring.timers - 1) + 0 = _
            omega
        | false =>
            show wiring.live + (wiring.timers - 1) + 1 = wiring.live + wiring.timers + 0
            omega
  | «open» connection timestamp =>
      rw [next] at h
      split at h
      · rename_i hconnecting
        obtain rfl := Option.some.inj h
        have hlive : live { wiring with sockets := wiring.sockets.set connection .opened } + 1 = wiring.live + 1 :=
          live_set hconnecting Socket.noConfusion .opened
        exact congrArg (· + wiring.timers) (Nat.succ.inj hlive)
      · cases h
  | close connection =>
      rw [next] at h
      split at h
      · rename_i hlive
        obtain rfl := Option.some.inj h
        have hclosed : live { wiring with sockets := wiring.sockets.set connection .closed } + 1 = wiring.live := by
          rcases hlive with hconnecting | hopened
          · exact live_set hconnecting Socket.noConfusion .closed
          · exact live_set hopened Socket.noConfusion .closed
        show live { wiring with sockets := wiring.sockets.set connection .closed } + (wiring.timers + 1) + 0 =
          wiring.live + wiring.timers + 0
        omega
      · cases h
  | frame connection frame | error connection =>
      rw [next] at h
      split at h
      · obtain rfl := Option.some.inj h
        rfl
      · cases h
  | _ =>
      obtain rfl := Option.some.inj h
      rfl

/-- Sockets are not forgotten. -/
theorem length_next {event : PageEvent} (h : wiring.next event = some wiring') :
    wiring.sockets.length ≤ wiring'.sockets.length := by
  have hconnect : ∀ (accepted : Bool) (before : Wiring),
      before.sockets.length ≤ (before.connect accepted).sockets.length := by
    intro accepted before
    cases accepted with
    | true =>
        show _ ≤ (before.sockets ++ [Socket.connecting]).length
        rw [List.length_append]
        exact Nat.le_add_right _ _
    | false => exact le_rfl
  cases event with
  | init accepted =>
      obtain rfl := Option.some.inj h
      exact hconnect accepted wiring
  | timeout accepted =>
      rw [next] at h
      split at h
      · cases h
      · obtain rfl := Option.some.inj h
        exact hconnect accepted { wiring with timers := wiring.timers - 1 }
  | «open» connection _ | close connection =>
      rw [next] at h
      split at h
      · obtain rfl := Option.some.inj h
        exact (List.length_set ..).ge
      · cases h
  | frame connection _ | error connection =>
      rw [next] at h
      split at h
      · obtain rfl := Option.some.inj h
        exact le_rfl
      · cases h
  | _ =>
      obtain rfl := Option.some.inj h
      exact le_rfl

/-- With nothing alive every socket is closed. -/
theorem closed_of_live (h : wiring.live = 0) (connection : Nat) (hlt : connection < wiring.sockets.length) :
    wiring.sockets[connection]? = some .closed := by
  have hall := List.countP_eq_zero.mp h wiring.sockets[connection] (List.getElem_mem hlt)
  rw [decide_eq_true_eq, ne_eq, not_not] at hall
  rw [List.getElem?_eq_getElem hlt, hall]

/-- `connect` on a page with no socket alive. -/
theorem Single.connect (h : wiring.Single) (hlive : wiring.live = 0) (accepted : Bool) :
    (wiring.connect accepted).Single := by
  cases accepted with
  | false => exact h
  | true =>
      have hlength : (wiring.sockets ++ [Socket.connecting]).length = wiring.sockets.length + 1 :=
        List.length_append
      constructor
      case newest =>
        intro connection
        show some wiring.sockets.length = some connection ↔
          connection + 1 = (wiring.sockets ++ [Socket.connecting]).length
        rw [hlength, Option.some.injEq]
        omega
      case older =>
        intro connection hlt
        have hlt' : connection < wiring.sockets.length := by
          have hlt' : connection + 1 < (wiring.sockets ++ [Socket.connecting]).length := hlt
          omega
        show (wiring.sockets ++ [Socket.connecting])[connection]? = _
        rw [List.getElem?_append_left hlt', closed_of_live hlive connection hlt']
      case arrived => exact h.arrived
      case known =>
        intro connection hconnection
        show connection < (wiring.sockets ++ [Socket.connecting]).length
        have hknown := h.known connection hconnection
        omega

/-- A socket changes that is not closed, and so the newest. -/
theorem Single.set (h : wiring.Single) {connection : Nat} {before : Socket}
    (hget : wiring.sockets[connection]? = some before) (hbefore : before ≠ .closed) (after : Socket) (timers : Nat) :
    Single { wiring with sockets := wiring.sockets.set connection after, timers } := by
  constructor
  case newest =>
    intro other
    show wiring.ws = some other ↔ other + 1 = (wiring.sockets.set connection after).length
    rw [List.length_set]
    exact h.newest other
  case older =>
    intro other hlt
    have hlt' : other + 1 < wiring.sockets.length := by
      rw [← List.length_set (i := connection) (a := after)]
      exact hlt
    have hother := h.older other hlt'
    have hne : connection ≠ other := by
      rintro rfl
      rw [hget] at hother
      exact hbefore (Option.some.inj hother)
    show (wiring.sockets.set connection after)[other]? = _
    rw [List.getElem?_set_ne hne, hother]
  case arrived => exact h.arrived
  case known =>
    intro other hother
    show other < (wiring.sockets.set connection after).length
    rw [List.length_set]
    exact h.known other hother

/-- A connection that is not closed is the newest. -/
theorem Single.last (h : wiring.Single) {connection : Nat} {socket : Socket}
    (hget : wiring.sockets[connection]? = some socket) (hsocket : socket ≠ .closed) :
    connection + 1 = wiring.sockets.length := by
  obtain ⟨hlt, _⟩ := List.getElem?_eq_some_iff.mp hget
  by_contra hne
  have hclosed := h.older connection (by omega)
  rw [hget] at hclosed
  exact hsocket (Option.some.inj hclosed)

/-- With room for one socket, every event keeps it so. -/
theorem Single.next (h : wiring.Single) {event : PageEvent} (hstep : wiring.next event = some wiring')
    (hroom : wiring.live + wiring.timers + (if event.starts then 1 else 0) ≤ 1) : wiring'.Single := by
  cases event with
  | init accepted =>
      obtain rfl := Option.some.inj hstep
      simp only [PageEvent.starts, if_true] at hroom
      exact h.connect (by omega) accepted
  | timeout accepted =>
      rw [Wiring.next] at hstep
      split at hstep
      · cases hstep
      · obtain rfl := Option.some.inj hstep
        have hidle : Single { wiring with timers := wiring.timers - 1 } := ⟨h.newest, h.older, h.arrived, h.known⟩
        exact hidle.connect (show wiring.live = 0 by omega) accepted
  | «open» connection timestamp =>
      rw [Wiring.next] at hstep
      split at hstep
      · rename_i hconnecting
        obtain rfl := Option.some.inj hstep
        exact h.set hconnecting Socket.noConfusion .opened wiring.timers
      · cases hstep
  | frame connection frame =>
      rw [Wiring.next] at hstep
      split at hstep
      · rename_i hopened
        obtain rfl := Option.some.inj hstep
        have hlast := h.last hopened Socket.noConfusion
        refine ⟨h.newest, h.older, ?_, ?_⟩
        · apply List.pairwise_append.mpr
          refine ⟨h.arrived, List.pairwise_singleton _ _, ?_⟩
          intro other hother current hcurrent
          obtain rfl := List.mem_singleton.mp hcurrent
          have hknown := h.known other hother
          omega
        · intro other hother
          rcases List.mem_append.mp hother with hold | hnew
          · exact h.known other hold
          · obtain rfl := List.mem_singleton.mp hnew
            show other < wiring.sockets.length
            omega
      · cases hstep
  | error connection =>
      rw [Wiring.next] at hstep
      split at hstep
      · obtain rfl := Option.some.inj hstep
        exact h
      · cases hstep
  | close connection =>
      rw [Wiring.next] at hstep
      split at hstep
      · rename_i hlive
        obtain rfl := Option.some.inj hstep
        rcases hlive with hconnecting | hopened
        · exact h.set hconnecting Socket.noConfusion .closed (wiring.timers + 1)
        · exact h.set hopened Socket.noConfusion .closed (wiring.timers + 1)
      · cases hstep
  | _ =>
      obtain rfl := Option.some.inj hstep
      exact h

end Events

end Wiring

/-! ### Whole runs -/

namespace Page

/-- The page has one connection at a time: `ws` is the newest socket, the others are closed, and frames are
written, and arrive, in the order of the connections. -/
structure OneAtATime (page : Page) : Prop where
  newest : ∀ connection, page.ws = some connection ↔ connection + 1 = page.sockets.length
  older : ∀ connection, connection + 1 < page.sockets.length → page.sockets[connection]? = some .closed
  written : (page.sent.map Prod.fst).Pairwise (· ≤ ·)
  arrived : (page.mail.arrived.map Arrival.connection).Pairwise (· ≤ ·)

section Runs

variable {browser : Browser} {grp : ModpGroup} {page page' : Page}

/-- What has been written is of a connection that the page has made. -/
def WrittenInOrder (page : Page) : Prop :=
  (page.sent.map Prod.fst).Pairwise (· ≤ ·) ∧ ∀ entry ∈ page.sent, entry.1 < page.sockets.length

/-- Frames go out on the newest connection. -/
theorem Steps.writtenInOrder {event : PageEvent} (h : Steps event page page')
    (hlength : page.sockets.length ≤ page'.sockets.length) (hsingle : page'.wiring.Single)
    (hwritten : page.WrittenInOrder) : page'.WrittenInOrder := by
  obtain ⟨hpairs, hknown⟩ := hwritten
  obtain ⟨more, hsent, hmore⟩ := h.sent
  have hlast : ∀ entry ∈ more, entry.1 + 1 = page'.sockets.length :=
    fun entry hentry => (hsingle.newest entry.1).mp (hmore entry hentry).1
  rw [WrittenInOrder, hsent]
  constructor
  · rw [List.map_append, List.pairwise_append]
    refine ⟨hpairs, ?_, ?_⟩
    · apply List.pairwise_of_forall_mem_list
      intro current hcurrent other hother
      obtain ⟨entry, hentry, rfl⟩ := List.mem_map.mp hcurrent
      obtain ⟨entry', hentry', rfl⟩ := List.mem_map.mp hother
      have hentry := hlast entry hentry
      have hentry' := hlast entry' hentry'
      omega
    · intro old hold current hcurrent
      obtain ⟨entry, hentry, rfl⟩ := List.mem_map.mp hold
      obtain ⟨entry', hentry', rfl⟩ := List.mem_map.mp hcurrent
      have hentry := hknown entry hentry
      have hentry' := hlast entry' hentry'
      omega
  · intro entry hentry
    rcases List.mem_append.mp hentry with hold | hnew
    · exact lt_of_lt_of_le (hknown entry hold) hlength
    · have hentry := hlast entry hnew
      omega

/-- A run keeps the balance of sockets and timers. -/
theorem run_balance {events : List PageEvent} (hsafe : page.Safe)
    (hrun : page.runEvents browser grp events = some page') :
    page'.wiring.live + page'.timers + events.countP PageEvent.rejects =
      page.wiring.live + page.timers + events.countP PageEvent.starts := by
  induction events generalizing page with
  | nil =>
      obtain rfl := Option.some.inj hrun
      rfl
  | cons event events ih =>
      obtain ⟨middle, hnext, hrest⟩ := Option.bind_eq_some_iff.mp hrun
      have hsteps := steps_next hsafe hnext
      have hbalance : middle.wiring.live + middle.timers + _ = page.wiring.live + page.timers + _ :=
        Wiring.next_balance hsteps.wiring
      have hlater := ih hsteps.safe hrest
      rw [List.countP_cons, List.countP_cons]
      omega

/-- With room for one socket, a run keeps one connection at a time. -/
theorem run_single {events : List PageEvent} (hsafe : page.Safe)
    (hrun : page.runEvents browser grp events = some page') (hsingle : page.wiring.Single)
    (hwritten : page.WrittenInOrder)
    (hroom : page.wiring.live + page.timers + events.countP PageEvent.starts ≤ 1) :
    page'.wiring.Single ∧ page'.WrittenInOrder := by
  induction events generalizing page with
  | nil =>
      obtain rfl := Option.some.inj hrun
      exact ⟨hsingle, hwritten⟩
  | cons event events ih =>
      obtain ⟨middle, hnext, hrest⟩ := Option.bind_eq_some_iff.mp hrun
      have hsteps := steps_next hsafe hnext
      have hbalance : middle.wiring.live + middle.timers + _ = page.wiring.live + page.timers + _ :=
        Wiring.next_balance hsteps.wiring
      rw [List.countP_cons] at hroom
      have hsingle' := hsingle.next hsteps.wiring (show page.wiring.live + page.timers + _ ≤ 1 by omega)
      exact ih hsteps.safe hrest hsingle'
        (hsteps.writtenInOrder (Wiring.length_next hsteps.wiring) hsingle' hwritten) (by omega)

/-- The calls of a page stay safe. -/
theorem run_safe {events : List PageEvent} (hsafe : page.Safe)
    (hrun : page.runEvents browser grp events = some page') : page'.Safe := by
  induction events generalizing page with
  | nil =>
      obtain rfl := Option.some.inj hrun
      exact hsafe
  | cons event events ih =>
      obtain ⟨middle, hnext, hrest⟩ := Option.bind_eq_some_iff.mp hrun
      exact ih (steps_next hsafe hnext).safe hrest

/-- A page with keys keeps some, and writes nothing in the clear. -/
theorem run_keyed {events : List PageEvent} (hsafe : page.Safe)
    (hrun : page.runEvents browser grp events = some page') (hkeys : page.keys.isSome = true) :
    page'.keys.isSome = true ∧
      ∃ more : List (Nat × Frame), page'.sent = page.sent ++ more ∧ ∀ entry ∈ more, NotPlain entry.2 := by
  induction events generalizing page with
  | nil =>
      obtain rfl := Option.some.inj hrun
      exact ⟨hkeys, [], (List.append_nil _).symm, fun entry hentry => absurd hentry List.not_mem_nil⟩
  | cons event events ih =>
      obtain ⟨middle, hnext, hrest⟩ := Option.bind_eq_some_iff.mp hrun
      have hsteps := steps_next hsafe hnext
      obtain ⟨first, hfirst, hplain⟩ := hsteps.sent
      obtain ⟨hlast, more, hmore, hrest⟩ := ih hsteps.safe hrest (hsteps.keys hkeys)
      refine ⟨hlast, first ++ more, by rw [hmore, hfirst, List.append_assoc], ?_⟩
      intro entry hentry
      rcases List.mem_append.mp hentry with hhere | hlater
      · exact (hplain entry hhere).2 hkeys
      · exact hrest entry hlater

/-- The page at its start. -/
theorem calls_loaded (such : Job → Prop) (userId : Int) : (loaded userId).Calls such where
  waiting := fun _ h => absurd h List.not_mem_nil
  going := fun _ h => absurd h List.not_mem_nil

end Runs

end Page

end Ui

open Ui

/-- The page keeps as many connections as it was initialised. In every run, whatever node it is served by and
however often it loses a connection, the sockets that are alive and the calls of `connect` that timers still have
to make are as many as the calls of `init`, less the calls of `connect` whose socket's constructor has thrown. A
page that is initialised once never has two sockets alive: `ws` is the newest one, all others are closed, and
frames are written, and arrive, in the order of the connections. -/
theorem one_connection (browser : Browser) (grp : ModpGroup) (userId : Int) {events : List PageEvent} {page : Page}
    (hrun : (Page.loaded userId).runEvents browser grp events = some page) :
    page.wiring.live + page.timers + events.countP PageEvent.rejects = events.countP PageEvent.starts ∧
      (events.countP PageEvent.starts ≤ 1 → page.OneAtATime) := by
  have hsafe := Page.calls_loaded Job.Safe userId
  constructor
  · rw [Page.run_balance hsafe hrun]
    exact Nat.zero_add _
  · intro hstarts
    have hsingle : (Page.loaded userId).wiring.Single := by
      constructor
      case newest =>
        intro connection
        exact iff_of_false (fun h => by cases h) (Nat.succ_ne_zero connection)
      case older => exact fun connection hlt => absurd hlt (Nat.not_lt_zero _)
      case arrived => exact .nil
      case known => exact fun connection hconnection => absurd hconnection List.not_mem_nil
    have hroom : (Page.loaded userId).wiring.live + (Page.loaded userId).timers +
        events.countP PageEvent.starts ≤ 1 := by
      rw [show (Page.loaded userId).wiring.live + (Page.loaded userId).timers = 0 from rfl, Nat.zero_add]
      exact hstarts
    obtain ⟨hlast, hwritten⟩ := Page.run_single hsafe hrun hsingle
      ⟨.nil, fun entry hentry => absurd hentry List.not_mem_nil⟩ hroom
    exact ⟨hlast.newest, hlast.older, hwritten.1, hlast.arrived⟩

/-- The first connection is lost, and its socket is followed by one more. -/
theorem one_connection_lost :
    ∃ page : Page, page.sockets = [.closed, .connecting] ∧ page.OneAtATime := by
  let events : List PageEvent :=
    [.init true, .open 0 "2024-01-01T00:00:00.000Z", .close 0, .timeout true]
  have hrun : ∃ page, (Page.loaded 7).runEvents sampleBrowser Ui.group events = some page ∧
      page.sockets = [.closed, .connecting] :=
    ⟨_, rfl, rfl⟩
  obtain ⟨page, hpage, hsockets⟩ := hrun
  obtain ⟨_, hone⟩ := one_connection sampleBrowser Ui.group 7 hpage
  exact ⟨page, hsockets, hone (by decide)⟩

/-- The framework calls the method `init` of a component by itself, and here `x-init` calls it once more. The page
then has two sockets, each with a `handshake` of its own. -/
theorem two_connections (browser : Browser) (grp : ModpGroup) (userId : Int) (first second : String) :
    ∃ page, (Page.loaded userId).runEvents browser grp
        [.init true, .init true, .open 0 first, .open 1 second] = some page ∧
      page.sockets = [.opened, .opened] ∧ page.mail.waiters.map Consumer.connection = [some 0, some 1] ∧
      ¬ page.OneAtATime := by
  refine ⟨_, rfl, rfl, rfl, ?_⟩
  intro hone
  cases hone.older 0 Nat.one_lt_two

/-- A page that has session keys never falls back to writing in the clear. It has them only in a browser that
provides a global `enc`. In every run, from the moment it has keys on, it has keys, and no frame it writes is a
chat message in the clear, on whatever connection, to whatever node, and whatever that node and its user do. -/
theorem no_fallback (browser : Browser) (grp : ModpGroup) (userId : Int) {before : List PageEvent} {page : Page}
    (hbefore : (Page.loaded userId).runEvents browser grp before = some page) (hkeys : page.keys.isSome = true) :
    (∃ enc, browser.globals.lookup "enc" = some enc) ∧
      ∀ after page', page.runEvents browser grp after = some page' →
        page'.keys.isSome = true ∧
          ∃ more : List (Nat × Frame), page'.sent = page.sent ++ more ∧
            ∀ entry ∈ more, ∀ text sender, entry.2 ≠ .chat text sender := by
  constructor
  · by_contra hnone
    have henc : browser.globals.lookup "enc" = none :=
      Option.eq_none_iff_forall_ne_some.mpr fun enc henc => hnone ⟨enc, henc⟩
    have hloaded : (Page.loaded userId).Keyless := ⟨rfl, Page.calls_loaded _ userId⟩
    rw [(hloaded.run henc hbefore).keys] at hkeys
    cases hkeys
  · intro after page' hafter
    obtain ⟨hkeyed, more, hsent, hmore⟩ :=
      Page.run_keyed (Page.run_safe (Page.calls_loaded Job.Safe userId) hbefore) hafter hkeys
    refine ⟨hkeyed, more, hsent, ?_⟩
    intro entry hentry text sender hchat
    have hplain := hmore entry hentry
    rw [hchat] at hplain
    exact hplain trivial

/-- With an `enc` that encodes texts the page has authenticated; it loses the connection, and the node it finds
next wants no password. -/
theorem no_fallback_unprotected : ∃ (page page' : Page) (more : List (Nat × Frame)),
    page'.state = .ready ∧ page'.sent = page.sent ++ more ∧ more.length = 2 ∧
      ∀ entry ∈ more, ∀ text sender, entry.2 ≠ .chat text sender := by
  let browser : Browser := { sampleBrowser with globals := ("enc", encoder) :: sampleBrowser.globals }
  let before : List PageEvent :=
    [.init true, .open 0 "2024-01-01T00:00:00.000Z", .frame 0 (.helloAck "active" "Node" true), .advance 0,
      .typePassword "alpha", .authenticate 3, .advance 0, .frame 0 (.covenantChallenge "05"), .advance 0,
      .frame 0 (.authOk "799913919ded23fd8871beb26b5ad43e62e271c99cce2eba898f0a36034b9e31"), .advance 0]
  -- The loop of the first connection takes the first `HELLO_ACK` of the second.
  let ack : Frame := .helloAck "active" "Node" false
  let after : List PageEvent :=
    [.close 0, .timeout true, .open 1 "2024-01-01T00:00:03.000Z", .frame 1 ack, .advance 0, .frame 1 ack,
      .advance 0, .typeDraft "hi", .send, .advance 0]
  have hboth : ((Page.loaded 7).runEvents browser group23 before).any (fun page =>
      page.keys.isSome && (page.runEvents browser group23 after).any fun page' =>
        page'.state = .ready && page'.sent.length = page.sent.length + 2) = true := by
    decide +kernel
  obtain ⟨page, hbefore, hfound⟩ := (Option.any_eq_true _ _).mp hboth
  obtain ⟨hkeys, hafter⟩ := Bool.and_eq_true_iff.mp hfound
  obtain ⟨page', hafter, hlast⟩ := (Option.any_eq_true _ _).mp hafter
  obtain ⟨hready, hlength⟩ := Bool.and_eq_true_iff.mp hlast
  obtain ⟨_, hnever⟩ := no_fallback browser group23 7 hbefore hkeys
  obtain ⟨_, more, hsent, hmore⟩ := hnever after page' hafter
  refine ⟨page, page', more, of_decide_eq_true hready, hsent, ?_, hmore⟩
  have hlength := of_decide_eq_true hlength
  rw [hsent, List.length_append] at hlength
  exact Nat.add_left_cancel hlength

end Priestly
