/-
Module: Priestly.Cli.Node
Layer: Cli
Purpose: `handle_session` of `cli/server.py` from the first message to the registration, and the node that
  runs it for any number of connections. A connection is greeted, goes through the handshake, and then
  is one of the threads of the hub; an exception may end it wherever it stands. The exchanges before
  the registration, the messages the loop has received and the frames handed to a socket are kept as
  history.
Imports: Priestly.Cli.Hub, Priestly.Lib.Exchanges, Priestly.Protocol.Covenant
Trusted boundary: none
Main exports: ServerConfig, authenticate, handleSession, Node, NodeEvent, NodeStep, Node.Run, Node.Returned
-/
import Mathlib.Logic.Relation
import Priestly.Cli.Hub
import Priestly.Lib.Exchanges
import Priestly.Protocol.Covenant

namespace Priestly

open ByteCodec Interaction

/-! ### The handler up to the registration -/

/-- The part of `config.ServerConfig` the handler reads. -/
structure ServerConfig where
  serverName : String
  password : Option String
deriving DecidableEq, Repr

namespace ServerConfig

/-- `password_required`: an empty password is none. -/
def passwordRequired (cfg : ServerConfig) : Bool :=
  match cfg.password with
  | none => false
  | some password => password ≠ ""

/-- `cfg.password.encode("utf-8") if cfg.password_required else None`. -/
def secret (cfg : ServerConfig) : Option Bytes :=
  if cfg.passwordRequired then cfg.password.map utf8Encode else none

end ServerConfig

section Handler

variable (rt : Runtime) (grp : ModpGroup) (cfg : ServerConfig) (b : Nat)

/-- `run_server` under its `except` clause; on a `CovenantError` there is no session. -/
def authenticate (password : Bytes) : Driver (Option SessionState) :=
  Program.handle (do return some (← runServer rt grp b password)) fun
    | .covenantError _ => return none
    | exn => throw exn

/-- The `RegisteredClient` of an authenticated connection. A browser is sealed to verbatim. -/
def authenticatedClient (name : String) (isBrowser : Bool) (session : SessionState) :
    RegisteredClient :=
  { name, session := some (if isBrowser then { session with compress := false } else session) }

/-- `handle_session` up to the client it registers; there is none when the handler returns before. -/
def handleSession : Driver (Option RegisteredClient) := do
  match ← recvFrame rt with
  | .hello handshake => do
      let name := s!"user{handshake.userId}"
      let isBrowser : Bool := handshake.status = "browser"
      Program.emit (.helloAck "ok" cfg.serverName cfg.passwordRequired)
      match cfg.secret with
      | none => return some { name, session := none }
      | some password => do
          return (← authenticate rt grp b password).map (authenticatedClient name isBrowser)
  | _ => do
      Program.emit (.error 400 "expected HELLO")
      return none

end Handler

/-! ### The node -/

/-- Where a connection stands. Before the registration it carries what is left of the handler; `inside`
it is a thread of the hub. -/
inductive Stage where
  | absent
  | entering (program : Driver (Option RegisteredClient))
  | inside
  | closed

/-- The state of a node. The exponent is the one the handshake of the connection draws. -/
structure Node where
  hub : Hub
  stage : Nat → Stage
  exponent : Nat → Nat
  entry : Nat → List (Exchange WsMessage Frame Exn)
  received : Nat → List WsMessage
  handed : Nat → List Written

/-- What may happen on a node. -/
inductive NodeEvent where
  | connect (i b : Nat)
  | exchange (i : Nat) (exchange : Exchange WsMessage Frame Exn)
  | register (i : Nat)
  | refuse (i : Nat)
  | work (event : HubEvent)
  | interrupt (i : Nat) (exn : Exn)

/-- The frame that was handed to a socket. -/
def Written.frame : Written → Frame
  | .reply frame => frame
  | .relayed _ frame => frame

/-- The thread is in the message loop or in a broadcast it started. -/
def Thread.Running : Thread → Prop
  | .looping | .broadcasting _ _ | .dropping _ _ _ => True
  | .absent | .leaving _ | .ended _ => False

/-- The session handler of the thread has not ended. -/
def Thread.Engaged (thread : Thread) : Prop := thread.Running ∨ ∃ ending, thread = .leaving ending

/-- What a step of the hub hands to a socket, whether or not the write goes through. -/
def HubEvent.offer (rt : Runtime) (s : Hub) : HubEvent → Option (Nat × Written)
  | .receive i message =>
      match (messageLoopBody rt (s.client i) message).1 with
      | .ok (.reply frame) => some (i, .reply frame)
      | _ => none
  | .deliver _ r b =>
      match s.broadcasts[b]? with
      | none => none
      | some message =>
          match ((s.client r).deliver rt message.text message.senderName).1 with
          | .ok frame => some (r, .relayed b frame)
          | .error _ => none
  | _ => none

namespace Node

open Function

/-- The node before the first connection. -/
def start : Node where
  hub := .start
  stage _ := .absent
  exponent _ := 0
  entry _ := []
  received _ := []
  handed _ := []

/-- An entry is added to the history of a connection. -/
def note {α : Type} (history : Nat → List α) : Option (Nat × α) → Nat → List α
  | none => history
  | some (i, entry) => update history i (history i ++ [entry])

/-- The message a step of the hub receives. -/
def message? : HubEvent → Option (Nat × WsMessage)
  | .receive i message => some (i, message)
  | _ => none

end Node

open Function in
/-- The steps of a node. -/
inductive NodeStep (rt : Runtime) (grp : ModpGroup) (cfg : ServerConfig) :
    NodeEvent → Node → Node → Prop where
  /-- A connection is accepted. -/
  | connect {s : Node} {i b : Nat} (free : s.stage i = .absent) :
      NodeStep rt grp cfg (.connect i b) s
        { s with
          stage := update s.stage i (.entering (handleSession rt grp cfg b))
          exponent := update s.exponent i b }
  /-- The handler writes; the write succeeds or raises anything. -/
  | write {s : Node} {i : Nat} {message : Frame} {answer : Option Exn}
      {next : Option Exn → Driver (Option RegisteredClient)}
      (entering : s.stage i = .entering (.send message next)) :
      NodeStep rt grp cfg (.exchange i (.wrote message answer)) s
        { s with
          stage := update s.stage i (.entering (next answer))
          entry := Node.note s.entry (some (i, .wrote message answer))
          handed := Node.note s.handed (some (i, .reply message)) }
  /-- The handler reads; the read yields any message or raises anything. -/
  | read {s : Node} {i : Nat} {input : Except Exn WsMessage}
      {next : Except Exn WsMessage → Driver (Option RegisteredClient)}
      (entering : s.stage i = .entering (.recv next)) :
      NodeStep rt grp cfg (.exchange i (.read input)) s
        { s with
          stage := update s.stage i (.entering (next input))
          entry := Node.note s.entry (some (i, .read input)) }
  /-- The handler registers its client and enters the loop. -/
  | register {s : Node} {i : Nat} {client : RegisteredClient} {hub : Hub}
      (entering : s.stage i = .entering (.done (some client)))
      (join : HubStep rt (.join i client) s.hub hub) :
      NodeStep rt grp cfg (.register i) s
        { s with hub, stage := update s.stage i .inside }
  /-- The handler returns without a client. -/
  | refuse {s : Node} {i : Nat} (entering : s.stage i = .entering (.done none)) :
      NodeStep rt grp cfg (.refuse i) s { s with stage := update s.stage i .closed }
  /-- A thread of the hub takes a step, or a socket fails. -/
  | work {s : Node} {event : HubEvent} {hub : Hub}
      (within : ∀ i client, event ≠ .join i client) (step : HubStep rt event s.hub hub) :
      NodeStep rt grp cfg (.work event) s
        { s with
          hub
          received := Node.note s.received (Node.message? event)
          handed := Node.note s.handed (event.offer rt s.hub) }
  /-- An exception ends a handler that has not registered yet. -/
  | interruptEntry {s : Node} {i : Nat} {exn : Exn} {program : Driver (Option RegisteredClient)}
      (entering : s.stage i = .entering program) :
      NodeStep rt grp cfg (.interrupt i exn) s { s with stage := update s.stage i .closed }
  /-- An exception takes a registered connection out of its loop. -/
  | interruptLoop {s : Node} {i : Nat} {exn : Exn} (running : (s.hub.thread i).Running) :
      NodeStep rt grp cfg (.interrupt i exn) s
        { s with hub.thread := update s.hub.thread i (.leaving (.raised exn)) }

namespace Node

section Runs

variable (rt : Runtime) (grp : ModpGroup) (cfg : ServerConfig)

/-- The second state is reached from the first. -/
def Leads : Node → Node → Prop := Relation.ReflTransGen fun s s' => ∃ event, NodeStep rt grp cfg event s s'

/-- The states that runs of the node reach. -/
def Run (s : Node) : Prop := Leads rt grp cfg .start s

/-- The connection is registered by its handler and has not left it. -/
def Inside (s : Node) (i : Nat) : Prop :=
  s.stage i = .inside ∧ (s.hub.thread i).Engaged

/-- The first message of the connection was a HELLO with the handshake. -/
def Greeted (s : Node) (i : Nat) (handshake : Handshake) : Prop :=
  ∃ message exchanges, s.entry i = .read (.ok message) :: exchanges ∧
    parseMessage rt message = .ok (.hello handshake)

/-- `run_server` has returned the session on the connection: it is the outcome of its run over what the
handler exchanged behind HELLO and HELLO_ACK. -/
def Returned (s : Node) (i : Nat) (session : SessionState) : Prop :=
  ∃ password hello exchanges, cfg.secret = some password ∧
    s.entry i = .read (.ok hello) ::
      .wrote (.helloAck "ok" cfg.serverName cfg.passwordRequired) none :: exchanges ∧
    ((runServer rt grp (s.exponent i) password).run (Exchange.connection exchanges)).outcome =
      .returned session

end Runs

end Node

/-- The same session at another time: its counters have moved, and compression may have been turned
off. -/
def SessionState.Continues (s s' : SessionState) : Prop :=
  (s'.compress = s.compress ∨ s'.compress = false) ∧
    s' = { s with compress := s'.compress, txSeq := s'.txSeq, rxSeq := s'.rxSeq }

end Priestly
