/-
Module: Priestly.Ui.Page
Layer: Ui
Purpose: `runCovenant` of `ui/index.html` as a program over the page's connection: it reads frames that
  `JSON.parse` has made of the server's messages, and writes frames. The ephemeral exponent is an
  argument.
Imports: Priestly.Lib.Interaction, Priestly.Ui.Covenant, Priestly.Protocol.Packets
Trusted boundary: the connection is open
Main exports: Ui.runCovenant
-/
import Priestly.Lib.Interaction
import Priestly.Protocol.Packets
import Priestly.Ui.Covenant

namespace Priestly

namespace Ui

open ByteCodec Interaction Js

/-- A script of the page reads and writes frames and ends with a value or an error. -/
abbrev Script := Program Frame Frame JsError

section Covenant

variable (grp : ModpGroup) (mac : Mac)

/-- `res.reason || "auth failed"`. Only these frames have a reason. -/
def reasonOr : Frame → String
  | .authFail reason | .error _ reason => if reason = "" then "auth failed" else reason
  | _ => "auth failed"

/-- The end of `runCovenant`: what it makes of the server's verdict. -/
def covenantOnResult (shared : BigInt) (commit : Bytes) (publicB : BigInt) :
    Frame → Except JsError Keys
  | .authOk confirmS => do
      let expectS := bytesToHex (← confirmMac grp mac shared commit "server" publicB)
      if expectS ≠ confirmS then .error (.error "server confirmation failed")
      else deriveKeys grp mac shared
  | other => .error (.error (reasonOr other))

/-- `runCovenant` after the challenge. -/
def covenantOnChallenge (a : BigInt) (pwBytes : Bytes) : Frame → Script Keys
  | .covenantChallenge maskedB => do
      let publicA := modPow grp.G a grp.P
      let commit := sha1 (bigToBytes publicA grp.elementBytes)
      let masked := bytesToBig (hexToBytes maskedB)
      let pe ← Program.lift (secretToElement grp mac pwBytes)
      let inverse ← Program.lift (modinv pe grp.P)
      let publicB := (masked * inverse).tmod grp.P
      let shared := modPow publicB a grp.P
      let confirmC ← Program.lift (confirmMac grp mac shared commit "client" publicA)
      Program.emit (.covenantConfirm (bytesToHex (bigToBytes publicA grp.elementBytes))
        (bytesToHex confirmC))
      Program.lift (covenantOnResult grp mac shared commit publicB (← Program.await))
  | _ => throw (.error "no challenge")

/-- `runCovenant` with the exponent `a`; it ends with the keys it has set. -/
def runCovenant (a : BigInt) (pwBytes : Bytes) : Script Keys := do
  let publicA := modPow grp.G a grp.P
  let commit := sha1 (bigToBytes publicA grp.elementBytes)
  Program.emit (.covenantCommit (bytesToHex commit))
  covenantOnChallenge grp mac a pwBytes (← Program.await)

end Covenant

end Ui

end Priestly
