/-
Module: Priestly.Protocol.Covenant
Layer: Protocol
Purpose: The handshake drivers of `protocol/covenant.py` as programs over one connection. Each driver
  is cut at its reads: one definition says what happens up to a read, the next what happens with the
  frame that was read. The ephemeral exponent is an argument.
Imports: Priestly.Lib.Interaction, Priestly.Protocol.Session
Trusted boundary: none
Main exports: recvFrame, elementHex, parseElement, runClient, runServer
-/
import Priestly.Lib.Interaction
import Priestly.Protocol.Session

namespace Priestly

open ByteCodec Interaction

/-- A driver reads WebSocket messages, writes frames, and ends with a session or an exception. -/
abbrev Driver := Program WsMessage Frame Exn

section Drivers

variable (rt : Runtime) (grp : ModpGroup)

/-- `_recv_frame`. -/
def recvFrame : Driver Frame := do
  Program.lift (parseMessage rt (← Program.await))

/-- `_element_hex`. -/
def elementHex (value : grp.Element) : String := hexString (grp.toBytes value)

/-- What the range check leaves is a residue. -/
theorem ModpGroup.toNat_lt {value : Int} (h : 1 < value ∧ value < (grp.P : Int) - 1) : value.toNat < grp.P := by
  omega

/-- Parse a wire group element and reject degenerate and out-of-range values. -/
def parseElement (text : String) : Except Exn grp.Element :=
  match intBase16 text with
  | none =>
      .error (.covenantError s!"malformed group element: invalid literal for int() with base 16: {(rt.strRepr text).take 200}")
  | some value =>
      if h : 1 < value ∧ value < (grp.P : Int) - 1 then .ok ⟨value.toNat, ModpGroup.toNat_lt grp h⟩
      else .error (.covenantError "group element out of range")

/-! ### Client -/

/-- The end of the client: what it makes of the server's verdict. -/
def clientOnResult (shared : grp.Element) (commit : Bytes) (publicB : grp.Element) :
    Frame → Except Exn SessionState
  | .authFail reason => .error (.covenantError s!"authentication failed: {reason}")
  | .authOk confirmS => do
      let expectedS := hexString (confirmMac grp rt.hmac shared commit serverRole publicB)
      if !(← compareDigest expectedS confirmS) then
        .error (.covenantError "server key confirmation failed (wrong password or MITM)")
      else return .new (← deriveSessionKeys grp rt.hmac shared) true true
  | other => .error (.covenantError s!"expected auth result, got {other.typeName}")

/-- The client after the challenge. -/
def clientOnChallenge (a : Nat) (password : Bytes) : Frame → Driver SessionState
  | .authFail reason => throw (.covenantError s!"server rejected handshake: {reason}")
  | .covenantChallenge text => do
      let publicA := publicElement grp a
      let commit := commitDigest grp publicA
      let maskedB ← Program.lift (parseElement rt grp text)
      let pe := secretToElement grp rt.hmac password
      let publicB ← Program.lift (unmask grp maskedB pe)
      let shared := sharedSecret grp publicB a
      let confirmC := confirmMac grp rt.hmac shared commit clientRole publicA
      Program.emit (.covenantConfirm (elementHex grp publicA) (hexString confirmC))
      Program.lift (clientOnResult rt grp shared commit publicB (← recvFrame rt))
  | other => throw (.covenantError s!"expected challenge, got {other.typeName}")

/-- Drive the client side of the handshake with the exponent `a`. -/
def runClient (a : Nat) (password : Bytes) : Driver SessionState := do
  Program.emit (.covenantCommit (hexString (commitDigest grp (publicElement grp a))))
  clientOnChallenge rt grp a password (← recvFrame rt)

/-! ### Server -/

/-- `_fail`: send `AUTH_FAIL`, whether or not the peer is still there, and abort. -/
def fail {α : Type} (reason : String) : Driver α := do
  Program.tryEmit (.authFail reason)
  throw (.covenantError reason)

/-- `_parse_element_or_fail`. -/
def parseElementOrFail (text : String) : Driver grp.Element :=
  match parseElement rt grp text with
  | .ok value => return value
  | .error exn => fail exn.str

/-- The server after the confirmation. -/
def serverOnConfirm (b : Nat) (commit : Bytes) : Frame → Driver SessionState
  | .covenantConfirm text confirmC => do
      let publicA ← parseElementOrFail rt grp text
      if commitDigest grp publicA ≠ commit then
        fail "commit does not match revealed element"
      else do
        let shared := sharedSecret grp publicA b
        let expectedC := hexString (confirmMac grp rt.hmac shared commit clientRole publicA)
        if !(← Program.lift (compareDigest expectedC confirmC)) then
          fail "client key confirmation failed"
        else do
          let confirmS := confirmMac grp rt.hmac shared commit serverRole (publicElement grp b)
          Program.emit (.authOk (hexString confirmS))
          return .new (← Program.lift (deriveSessionKeys grp rt.hmac shared)) false true
  | _ => fail "expected confirm"

/-- The server after the commitment. -/
def serverOnCommit (b : Nat) (password : Bytes) : Frame → Driver SessionState
  | .covenantCommit text =>
      match bytesFromHex text.toList with
      | none => fail "malformed commit"
      | some commit =>
          if commit.length ≠ 20 then fail "malformed commit"
          else do
            let pe := secretToElement grp rt.hmac password
            let maskedB := mask grp (publicElement grp b) pe
            Program.emit (.covenantChallenge (elementHex grp maskedB))
            serverOnConfirm rt grp b commit (← recvFrame rt)
  | _ => fail "expected commit"

/-- Drive the server side of the handshake with the exponent `b`. -/
def runServer (b : Nat) (password : Bytes) : Driver SessionState := do
  serverOnCommit rt grp b password (← recvFrame rt)

end Drivers

end Priestly
