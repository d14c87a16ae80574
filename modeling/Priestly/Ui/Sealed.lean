/-
Module: Priestly.Ui.Sealed
Layer: Ui
Purpose: The sealed frames of `ui/covenant.js`: `seal`, which stores the plaintext verbatim, and `open_`;
  and `openSealed` of the page, which remembers the last number it has accepted.
Imports: Priestly.Js.Encoding, Priestly.Ui.Covenant
Trusted boundary: the number a frame is sealed under is a safe integer of the language, below 2^53
Main exports: Ui.u64be, Ui.received, Ui.seal, Ui.open_, Ui.openSealed, Ui.openEach
-/
import Priestly.Js.Encoding
import Priestly.Ui.Covenant

namespace Priestly

namespace Ui

open ByteCodec Js

/-- `u64be`. -/
def u64be (n : Int) : Bytes := setBigUint64 n

/-- `b64encode`. -/
def b64encode (bytes : Bytes) : Except JsError String := btoa (bytes.map UInt8.toNat)

/-- `b64decode`. The array keeps the low octet of a code unit. -/
def b64decode (str : String) : Except JsError Bytes := do
  return (← atob str).map UInt8.ofNat

/-- A frame as `JSON.parse` makes it, which reads the numbers as Numbers. -/
def received (frame : SealedFrame) : SealedFrame :=
  { frame with epoch := toNumber frame.epoch, seq := toNumber frame.seq }

section Sealed

variable (js : JsonCodec) (mac : Mac)

/-- `seal`. -/
def «seal» (keys : Keys) (seq : Int) (obj : Json) : Except JsError SealedFrame := do
  let plaintext := utf8Encode (js.stringify obj)
  let body := 0x00 :: plaintext
  let header := u64be 0 ++ u64be seq ++ utf8Encode "C"
  let tag := bytesToHex (← hmac mac keys.clientMac (header ++ body))
  return { epoch := 0, seq, direction := "client", payload := ← b64encode body, tag }

/-- `open_`. -/
def open_ (keys : Keys) (rxSeq : Int) (frame : SealedFrame) : Except JsError Json :=
  if frame.direction ≠ "server" then .error (.error "bad direction")
  else do
    let body ← b64decode frame.payload
    let header := u64be frame.epoch ++ u64be frame.seq ++ utf8Encode "S"
    let expect := bytesToHex (← hmac mac keys.serverMac (header ++ body))
    if expect ≠ frame.tag then .error (.error "bad tag")
    else if frame.seq ≤ rxSeq then .error (.error "replay")
    else if body[0]? ≠ some 0x00 then .error (.error "unexpected compression")
    else js.parse (textDecode (body.drop 1))

/-- `openSealed`: the object of the frame, or the error, and the last accepted number. -/
def openSealed (keys : Keys) (rxSeq : Int) (frame : SealedFrame) : Except JsError Json × Int :=
  match open_ js mac keys rxSeq frame with
  | .ok obj => (.ok obj, frame.seq)
  | .error error => (.error error, rxSeq)

/-- What the page opens from the frames that arrive in turn. -/
def openEach (keys : Keys) : Int → List SealedFrame → List (Except JsError Json)
  | _, [] => []
  | rxSeq, frame :: frames =>
      let (result, rxSeq') := openSealed js mac keys rxSeq frame
      result :: openEach keys rxSeq' frames

/-- What the page seals for the objects it sends in turn, each under its number. -/
def sealEach (keys : Keys) (messages : List (Int × Json)) : Except JsError (List SealedFrame) :=
  messages.mapM fun message => «seal» js mac keys message.1 message.2

end Sealed

end Ui

end Priestly
