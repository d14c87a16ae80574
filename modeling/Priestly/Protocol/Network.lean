/-
Module: Priestly.Protocol.Network
Layer: Protocol
Purpose: Any number of concurrent handshake sessions and an attacker who owns the wire. A session is an
  honest driver with its own password and exponent and the messages it has been handed so far; the
  attacker starts sessions and hands any session any message.
Imports: Priestly.Protocol.Covenant
Trusted boundary: none
Main exports: Party, Network, NetStep, OnWire, Party.Accepts, Network.Reachable
-/
import Mathlib.Logic.Relation
import Priestly.Protocol.Covenant

namespace Priestly

open ByteCodec Interaction

/-- One honest session. -/
structure Party where
  role : Role
  password : Bytes
  exponent : Nat
  received : List WsMessage
deriving DecidableEq, Repr

/-- All sessions started so far, in the order of their starts. -/
abbrev Network := List Party

/-- Hand a session its next message. -/
def Party.receive (p : Party) (message : WsMessage) : Party :=
  { p with received := p.received ++ [message] }

section

variable (rt : Runtime) (grp : ModpGroup)

/-- What a session has sent so far and how it stands. -/
def Party.trace (p : Party) : Program.Trace Frame Exn SessionState :=
  match p.role with
  | .client => (runClient rt grp p.exponent p.password).runLive p.received
  | .server => (runServer rt grp p.exponent p.password).runLive p.received

/-- The confirmation a frame carries. -/
def Frame.confirmation? : Frame → Option String
  | .covenantConfirm _ confirmC => some confirmC
  | .authOk confirmS => some confirmS
  | _ => none

/-- An honest session has put the confirmation on the wire. -/
def OnWire (net : Network) (confirmation : String) : Prop :=
  ∃ p ∈ net, ∃ frame ∈ (p.trace rt grp).sent, frame.confirmation? = some confirmation

/-- The session has accepted the confirmation: it returned, and its second message carried it. -/
def Party.Accepts (p : Party) (confirmation : String) : Prop :=
  (∃ session, (p.trace rt grp).outcome = .returned session) ∧
    ∃ message message' rest frame, p.received = message :: message' :: rest ∧
      parseMessage rt message' = .ok frame ∧ frame.confirmation? = some confirmation

/-- One step of the network. The attacker starts a session, or hands a session a message of its own
making: one it has seen, altered, kept back or invented. What it cannot do is originate a
confirmation: if the session accepts one with this message, an honest session had sent it before. -/
inductive NetStep : Network → Network → Prop where
  | start {net} (p : Party) (fresh : p.received = []) : NetStep net (net ++ [p])
  | deliver {before after} (p : Party) (message : WsMessage)
      (origin : ∀ confirmation, (p.receive message).Accepts rt grp confirmation →
        ¬ p.Accepts rt grp confirmation → OnWire rt grp (before ++ p :: after) confirmation) :
      NetStep (before ++ p :: after) (before ++ p.receive message :: after)

/-- The networks the attacker can reach. -/
def Network.Reachable (net : Network) : Prop := Relation.ReflTransGen (NetStep rt grp) [] net

/-- The element a session contributes. -/
def Party.publicElement (p : Party) : grp.Element := Priestly.publicElement grp p.exponent

end

end Priestly
