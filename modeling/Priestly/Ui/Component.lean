/-
Module: Priestly.Ui.Component
Layer: Ui
Purpose: The component `priestly()` of `ui/index.html` as a machine. An event is a callback of a socket, a
  timer, a key or a click; it runs to the next `await` of the function it calls. A function that awaits a
  frame is a reader of the page's mailbox, and one whose promise is settled, or that awaits WebCrypto, is a
  job; the jobs go on in any order. What the functions between two awaits compute is in `Ui.Page` and
  `Ui.Sealed`. The time of a message is left out.
Imports: Priestly.Lib.Mailbox, Priestly.Ui.Page, Priestly.Ui.Scope, Priestly.Ui.Sealed
Trusted boundary: the browser's JSON functions, MAC and global object are parameters; an await of WebCrypto
  at a point where the function has no effect before the next one is not a point of its own; nor is the end of
  `runCovenant`, which sets the keys and the counters, or of `openSealed`, which sets `rxSeq`: `authenticate` and
  `receiveLoop` go on in the same turn
Main exports: Plumbing, Page, PageEvent, Page.next, Page.fieldEnabled, Page.enterEnabled, Page.runEvents
-/
import Priestly.Lib.Mailbox
import Priestly.Ui.Page
import Priestly.Ui.Scope
import Priestly.Ui.Sealed

namespace Priestly

namespace Ui

open ByteCodec Interaction Js

/-- What the page runs on. -/
structure Browser where
  json : JsonCodec
  hmac : Mac
  /-- What the browser itself puts on the global object. -/
  globals : List (String × Value)

/-! ### The frame plumbing -/

/-- `ws.readyState` of a socket that has been made. -/
inductive Socket where
  | connecting
  | opened
  | closed
deriving DecidableEq, Repr

/-- A frame, and the connection whose socket has delivered it. Connections are numbered in the order of
their sockets. -/
structure Arrival where
  connection : Nat
  frame : Frame
deriving DecidableEq, Repr

/-- A function that reads frames, where it awaits one. -/
inductive Resumption where
  | handshake
  | runCovenant (next : Except JsError Frame → Script Keys)
  | receiveLoop

/-- A call of such a function, and the connection it was started for: `handshake` for the one that has
opened, `authenticate` for the one `this.ws` is, and `receiveLoop` for the one of its caller. -/
structure Consumer where
  connection : Option Nat
  resume : Resumption

/-- A call that goes on when its turn comes. -/
inductive Job where
  | resumed (consumer : Consumer) (frame : Frame)
  | computing (connection : Option Nat) (script : Script Keys)
  | opening (connection : Option Nat) (seq : Int) (result : Except JsError Json)
  | sealing (text : String) (result : Except JsError SealedFrame)

/-- The connection of a job that reads frames; `send` reads none. -/
def Job.consumer? : Job → Option (Option Nat)
  | resumed consumer _ => some consumer.connection
  | computing connection _ => some connection
  | opening connection _ _ => some connection
  | sealing _ _ => none

/-- The part of the page that moves frames. -/
structure Plumbing where
  /-- `inbox` and `waiters`. -/
  mail : Mailbox Arrival Consumer
  jobs : List Job
  sockets : List Socket
  ws : Option Nat
  /-- The calls of `connect` that `setTimeout` still has to make. -/
  timers : Nat
  /-- What was sent, and on which connection. -/
  sent : List (Nat × Frame)

namespace Plumbing

/-- `onFrame`. -/
def onFrame (arrival : Arrival) (page : Plumbing) : Plumbing :=
  match page.mail.put arrival with
  | (some consumer, mail) => { page with mail, jobs := page.jobs ++ [.resumed consumer arrival.frame] }
  | (none, mail) => { page with mail }

/-- `nextFrame`, awaited. -/
def nextFrame (consumer : Consumer) (page : Plumbing) : Plumbing :=
  match page.mail.take consumer with
  | (some arrival, mail) => { page with mail, jobs := page.jobs ++ [.resumed consumer arrival.frame] }
  | (none, mail) => { page with mail }

/-- `sendFrame`. -/
def sendFrame (frame : Frame) (page : Plumbing) : Plumbing :=
  match page.ws with
  | none => page
  | some connection =>
      if page.sockets[connection]? = some .opened then
        { page with sent := page.sent ++ [(connection, frame)] }
      else page

/-- A call goes on later. -/
def spawn (job : Job) (page : Plumbing) : Plumbing := { page with jobs := page.jobs ++ [job] }

/-- The connections of the calls that read frames and have not ended. -/
def consumers (page : Plumbing) : List (Option Nat) :=
  page.mail.waiters.map Consumer.connection ++ page.jobs.filterMap Job.consumer?

/-- The frames that were sent on a connection. -/
def sentOn (connection : Nat) (page : Plumbing) : List Frame :=
  (page.sent.filter (·.1 = connection)).map Prod.snd

end Plumbing

/-! ### The component -/

/-- `this.state`. -/
inductive PageState where
  | connecting
  | authenticating
  | ready
  | error
  | disconnected
deriving DecidableEq, Repr

/-- An entry of `messages`. The text and the sender are `undefined` where a sealed object lacks them. -/
structure Entry where
  id : Nat
  text : Option Json
  sender : Option Json
  direction : String

/-- The component. -/
structure Page extends Plumbing where
  state : PageState
  error : String
  serverName : String
  needsPassword : Bool
  authenticated : Bool
  password : String
  draft : String
  messages : List Entry
  msgId : Nat
  userId : Int
  keys : Option Keys
  txSeq : Int
  rxSeq : Int

/-- What happens to a page. -/
inductive PageEvent where
  /-- The framework calls `init`; the constructor of the socket returns or throws. -/
  | init (accepted : Bool)
  /-- A timer calls `connect`. -/
  | timeout (accepted : Bool)
  | open (connection : Nat) (timestamp : String)
  | frame (connection : Nat) (frame : Frame)
  | error (connection : Nat)
  | close (connection : Nat)
  | typePassword (text : String)
  | typeDraft (text : String)
  /-- A call of `authenticate`, and what `randomExponent` returns in it. -/
  | authenticate (a : BigInt)
  | send
  /-- The job at a position goes on. -/
  | advance (position : Nat)

/-- `const { text, sender } = obj`. -/
def destructure : Json → Except JsError (Option Json × Option Json)
  | .null => .error .typeError
  | .object entries => .ok (entries.lookup "text", entries.lookup "sender")
  | _ => .ok (none, none)

/-- `C.open_(keys, rxSeq, frame)`, where the page may have no keys. -/
def openWith (browser : Browser) (keys : Option Keys) (rxSeq : Int) (frame : SealedFrame) :
    Except JsError Json :=
  match keys with
  | some keys => open_ browser.json browser.hmac keys rxSeq frame
  | none =>
      if frame.direction ≠ "server" then .error (.error "bad direction")
      else do
        let _ ← b64decode frame.payload
        .error .typeError

namespace Page

/-- The component as `priestly()` returns it. -/
def loaded (userId : Int) : Page where
  mail := .empty
  jobs := []
  sockets := []
  ws := none
  timers := 0
  sent := []
  state := .connecting
  error := ""
  serverName := ""
  needsPassword := false
  authenticated := false
  password := ""
  draft := ""
  messages := []
  msgId := 0
  userId
  keys := none
  txSeq := 0
  rxSeq := 0

/-- `fail`. -/
def fail (msg : String) (page : Page) : Page := { page with error := msg, state := .error }

/-- `addMessage`. -/
def addMessage (text sender : Option Json) (direction : String) (page : Page) : Page :=
  { page with
    msgId := page.msgId + 1
    messages := page.messages ++ [{ id := page.msgId + 1, text, sender, direction }] }

/-- `sendFrame`. -/
def sendFrame (frame : Frame) (page : Page) : Page :=
  { page with toPlumbing := page.toPlumbing.sendFrame frame }

/-- `nextFrame`, awaited. -/
def nextFrame (consumer : Consumer) (page : Page) : Page :=
  { page with toPlumbing := page.toPlumbing.nextFrame consumer }

/-- A call goes on later. -/
def spawn (job : Job) (page : Page) : Page := { page with toPlumbing := page.toPlumbing.spawn job }

/-- `connect`. -/
def connect (accepted : Bool) (page : Page) : Page :=
  let page := { page with state := .connecting, error := "" }
  if accepted then
    { page with ws := some page.sockets.length, sockets := page.sockets ++ [.connecting] }
  else page.fail "Could not open WebSocket."

/-- `ws.onclose`. -/
def onClose (connection : Nat) (page : Page) : Page :=
  { page with
    sockets := page.sockets.set connection .closed
    state := if page.state ≠ .error then .disconnected else page.state
    timers := page.timers + 1 }

/-- `handshake`, up to the frame it awaits. -/
def handshake (connection : Nat) (timestamp : String) (page : Page) : Page :=
  let hello := .hello { id := 1, userId := page.userId, deviceId := 1, timestamp, status := "browser" }
  (page.sendFrame hello).nextFrame { connection := some connection, resume := .handshake }

/-- `receiveLoop`, from the head of the loop to the frame it awaits. -/
def receiveLoop (connection : Option Nat) (page : Page) : Page :=
  if page.state = .ready then page.nextFrame { connection, resume := .receiveLoop } else page

/-- `handshake`, from the frame on. -/
def acked (connection : Option Nat) (ack : Frame) (page : Page) : Page :=
  match ack with
  | .helloAck _ serverName passwordRequired =>
      let page := { page with serverName }
      if passwordRequired then { page with needsPassword := true, state := .authenticating }
      else { page with state := .ready }.receiveLoop connection
  | _ => page.fail "Unexpected server reply."

/-- The `catch` of `authenticate`. -/
def refused (page : Page) : Page :=
  { page with
    password := ""
    state := .error
    needsPassword := true
    authenticated := false
    error := "Authentication failed. Check the secret." }

/-- `runCovenant` up to the next frame it awaits. At its end it keeps the keys and resets the counters, and
`authenticate` goes on. -/
def runCovenant (connection : Option Nat) : Script Keys → Page → Page
  | .done keys, page =>
      { page with
        keys := some keys
        txSeq := 0
        rxSeq := 0
        authenticated := true
        state := .ready }.receiveLoop connection
  | .raise _, page => page.refused
  | .send frame next, page => runCovenant connection (next none) (page.sendFrame frame)
  | .recv next, page => page.nextFrame { connection, resume := .runCovenant next }

/-- `authenticate`, up to the first digest that `runCovenant` awaits. -/
def authenticate (browser : Browser) (grp : ModpGroup) (a : BigInt) (page : Page) : Page :=
  if page.password = "" then page
  else
    let page := { page with state := .authenticating, error := "" }
    match (pageScope browser.globals).encode page.password with
    | .ok pwBytes => page.spawn (.computing page.ws (Ui.runCovenant grp browser.hmac a pwBytes))
    | .error _ => page.refused

/-- `receiveLoop`, from a frame on. -/
def received (browser : Browser) (connection : Option Nat) (frame : Frame) (page : Page) : Page :=
  match frame with
  | .chat text sender =>
      (page.addMessage (some (.string text)) (some (.string sender)) "incoming").receiveLoop connection
  | .sealed frame =>
      let frame := Ui.received frame
      page.spawn (.opening connection frame.seq (openWith browser page.keys page.rxSeq frame))
  | .error _ reason =>
      { page with error := if reason = "" then "Server error." else reason }.receiveLoop connection
  | _ => page.receiveLoop connection

/-- `receiveLoop`, from the end of `openSealed` on; `openSealed` remembers the number first. -/
def opened (connection : Option Nat) (seq : Int) (result : Except JsError Json) (page : Page) : Page :=
  match result with
  | .error _ => page.receiveLoop connection
  | .ok obj =>
      let page := { page with rxSeq := seq }
      match destructure obj with
      | .ok (text, sender) => (page.addMessage text sender "incoming").receiveLoop connection
      | .error _ => page.receiveLoop connection

/-- The end of `send`. -/
def sendDone (text : String) (page : Page) : Page :=
  { page.addMessage (some (.string text)) (some (.string "browser")) "outgoing" with draft := "" }

/-- `send`, up to the tag that `C.seal` awaits. The counter is a Number. -/
def send (browser : Browser) (page : Page) : Page :=
  let text := trim page.draft
  if text = "" ∨ page.state ≠ .ready then page
  else
    match page.keys with
    | some keys =>
        let seq := toNumber (page.txSeq + 1)
        let obj := .object [("text", .string text), ("sender", .string "browser")]
        { page with txSeq := seq }.spawn
          (.sealing text (Ui.seal browser.json browser.hmac keys seq obj))
    | none => (page.sendFrame (.chat text "browser")).sendDone text

/-- A job goes on. -/
def settle (browser : Browser) : Job → Page → Page
  | .resumed ⟨connection, .handshake⟩ frame, page => page.acked connection frame
  | .resumed ⟨connection, .runCovenant next⟩ frame, page => runCovenant connection (next (.ok frame)) page
  | .resumed ⟨connection, .receiveLoop⟩ frame, page => page.received browser connection frame
  | .computing connection script, page => runCovenant connection script page
  | .opening connection seq result, page => page.opened connection seq result
  | .sealing text (.ok frame), page => (page.sendFrame (.sealed frame)).sendDone text
  | .sealing _ (.error _), page => page

/-- What an event does; `none` where it cannot happen. -/
def next (browser : Browser) (grp : ModpGroup) (page : Page) : PageEvent → Option Page
  | .init accepted => some (page.connect accepted)
  | .timeout accepted =>
      if page.timers = 0 then none
      else some ({ page with timers := page.timers - 1 }.connect accepted)
  | .open connection timestamp =>
      if page.sockets[connection]? = some .connecting then
        some ({ page with sockets := page.sockets.set connection .opened }.handshake connection timestamp)
      else none
  | .frame connection frame =>
      if page.sockets[connection]? = some .opened then
        some { page with toPlumbing := page.toPlumbing.onFrame { connection, frame } }
      else none
  | .error connection =>
      if page.sockets[connection]? = some .connecting ∨ page.sockets[connection]? = some .opened then
        some (page.fail "WebSocket error. Is the server running, and its certificate trusted?")
      else none
  | .close connection =>
      if page.sockets[connection]? = some .connecting ∨ page.sockets[connection]? = some .opened then
        some (page.onClose connection)
      else none
  | .typePassword text => some { page with password := text }
  | .typeDraft text => some { page with draft := text }
  | .authenticate a => some (page.authenticate browser grp a)
  | .send => some (page.send browser)
  | .advance position =>
      match page.jobs[position]? with
      | some job => some (settle browser job { page with jobs := page.jobs.eraseIdx position })
      | none => none

/-! ### The password gate -/

/-- The gate is on the page: `x-if="needsPassword && !authenticated"`. -/
def gateShown (page : Page) : Bool := page.needsPassword && !page.authenticated

/-- The password field is not `:disabled="state === 'authenticating'"`. -/
def fieldEnabled (page : Page) : Bool := !(page.state = .authenticating)

/-- The Enter button is not `:disabled="!password || state === 'authenticating'"`. -/
def enterEnabled (page : Page) : Bool := !(page.password = "" || page.state = .authenticating)

/-! ### Runs -/

/-- The events of a run in turn. -/
def runEvents (browser : Browser) (grp : ModpGroup) : List PageEvent → Page → Option Page
  | [], page => some page
  | event :: events, page => (page.next browser grp event).bind (runEvents browser grp events)

end Page

end Ui

end Priestly
