/-
Module: Priestly.Ui.Visit
Layer: Ui
Purpose: A browser in the chat: the page of `ui/index.html`, from the moment it is ready, at the other end of
  one connection of the running server of `cli/server.py`. The connection keeps the order of what is written to
  it, in either direction. Whoever is at the other connections does as they like.
Imports: Priestly.Cli.Hub, Priestly.Proofs.BrowserSequence
Trusted boundary: what `JSON.stringify` makes of a frame of the page is a parameter
Main exports: Ui.Visit, Ui.VisitStep, Ui.Visit.Run, Ui.Visit.Begins
-/
import Mathlib.Logic.Relation
import Priestly.Cli.Hub
import Priestly.Proofs.BrowserSequence

namespace Priestly

namespace Ui

open ByteCodec Interaction Js

/-- The page, the server, and how far each has come in what the other has written to the connection. -/
structure Visit where
  hub : Hub
  page : Page
  /-- The frames the server has written to the connection that have arrived at the page. -/
  arrived : Nat
  /-- The frames the page has written to the connection that the server has received. -/
  received : Nat

/-- What happens on a page by itself: its user types and sends, and calls go on. -/
def PageEvent.Own : PageEvent → Prop
  | .typePassword _ | .typeDraft _ | .send | .advance _ => True
  | _ => False

/-- The number of a sealed frame is a safe integer of the page's language. -/
def SafeNumber : Frame → Prop
  | .sealed frame => frame.seq < 2 ^ 53
  | _ => True

/-- The steps of a visit on connection `i` of the server, which is connection `c` of the page. The calls of
`send` write their frames in their order. -/
inductive VisitStep (rt : Runtime) (browser : Browser) (grp : ModpGroup) (wire : Frame → WsMessage)
    (i c : Nat) : Visit → Visit → Prop where
  /-- The user does something, or a call goes on. -/
  | use {v : Visit} {event : PageEvent} {page : Page} (own : event.Own) (turn : v.page.InTurn event)
      (next : v.page.next browser grp event = some page) : VisitStep rt browser grp wire i c v { v with page }
  /-- The next frame of the server arrives at the page. -/
  | arrive {v : Visit} {written : Written} {page : Page} (oldest : (v.hub.written i)[v.arrived]? = some written)
      (safe : SafeNumber written.frame)
      (next : v.page.next browser grp (.frame c written.frame) = some page) :
      VisitStep rt browser grp wire i c v { v with page, arrived := v.arrived + 1 }
  /-- The loop of the connection receives the next frame of the page. -/
  | receive {v : Visit} {frame : Frame} {hub : Hub} (oldest : (v.page.sentOn c)[v.received]? = some frame)
      (step : HubStep rt (.receive i (wire frame)) v.hub hub) :
      VisitStep rt browser grp wire i c v { v with hub, received := v.received + 1 }
  /-- The server takes another step, on this connection or on others. -/
  | work {v : Visit} {event : HubEvent} {hub : Hub} (other : ∀ message, event ≠ .receive i message)
      (joined : ∀ client, event ≠ .join i client) (step : HubStep rt event v.hub hub) :
      VisitStep rt browser grp wire i c v { v with hub }

namespace Visit

/-- A page that is ready on a connection that the server has just registered: without keys on an open node, and
with the keys of the session on a protected one, which does not compress what it writes to a browser. A page comes
by keys only where the browser provides the `enc` that `authenticate` calls (see `no_fallback`), and the loop of
the connection is the only function that awaits a frame where the page was initialised once: initialised twice, it
has a second connection and a `handshake` that awaits the frames of either. -/
structure Begins (rt : Runtime) (keys : Option SessionKeys) (i c : Nat) (v : Visit) : Prop where
  joined : ∃ (hub : Hub) (name : String), Hub.Run rt (fun _ _ => True) hub ∧
    HubStep rt (.join i { name, session := keys.map (.new · false false) }) hub v.hub
  state : v.page.state = .ready
  keys : v.page.keys = keys.map SessionKeys.page
  counters : v.page.txSeq = 0 ∧ v.page.rxSeq = 0
  ws : v.page.ws = some c
  opened : v.page.sockets[c]? = some .opened
  waiters : v.page.mail.waiters = [{ connection := some c, resume := .receiveLoop }]
  jobs : v.page.jobs = []
  arrived : v.arrived = 0
  received : v.received = (v.page.sentOn c).length

/-- What runs reach from a visit. -/
def Run (rt : Runtime) (browser : Browser) (grp : ModpGroup) (wire : Frame → WsMessage) (i c : Nat) :
    Visit → Visit → Prop := Relation.ReflTransGen (VisitStep rt browser grp wire i c)

end Visit

end Ui

end Priestly
