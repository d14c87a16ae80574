/-
Module: Priestly.Ui.Scope
Layer: Ui
Purpose: What a name stands for in the script of `ui/index.html`. `ui/covenant.js` keeps its declarations to
  itself, in the function it runs, and leaves one object on the global object; the page reads that object
  into a constant. A name is looked up among the declarations of the page and then on the global object.
Imports: Priestly.Js.Builtins, Priestly.Python.Builtins
Trusted boundary: the properties a browser puts on the global object are a parameter
Main exports: Ui.Value, Ui.api, Ui.Scope.resolve, Ui.pageScope, Ui.Scope.encode
-/
import Priestly.Js.Builtins
import Priestly.Python.Builtins

namespace Priestly

namespace Ui

open ByteCodec Js

/-- What a name can stand for. Only functions from a text to bytes are told apart. -/
inductive Value where
  | function (body : String → Except JsError Bytes)
  | object (members : List (String × Value))
  | other

/-- A call with a text. -/
def Value.call : Value → String → Except JsError Bytes
  | function body, text => body text
  | _, _ => .error .typeError

/-- A property of a value. -/
def Value.member? : Value → String → Option Value
  | object members, name => members.lookup name
  | _, _ => none

/-! ### `ui/covenant.js` -/

/-- The function `enc` of the script: `new TextEncoder().encode(s)`. -/
def encoder : Value := .function fun text => .ok (utf8Encode text)

/-- The declarations of the script; they are local to the function it runs. -/
def covenantLocals : List (String × Value) :=
  [("P", .other), ("G", .other), ("ELEMENT_BYTES", .other), ("subtle", .other), ("enc", encoder)] ++
    ["modPow", "egcd", "modinv", "bytesToBig", "bigToBytes", "hexToBytes", "bytesToHex", "concat", "u64be",
      "b64encode", "b64decode", "sha1", "hmac", "secretToElement", "randomExponent", "confirmMac",
      "hkdfExpand", "deriveKeys", "seal", "open_"].map (·, .other)

/-- The names the script lists in `api`. -/
def apiNames : List String :=
  ["P", "G", "ELEMENT_BYTES", "modPow", "modinv", "egcd", "bytesToBig", "bigToBytes", "hexToBytes",
    "bytesToHex", "concat", "u64be", "b64encode", "b64decode", "enc", "sha1", "hmac", "secretToElement",
    "randomExponent", "confirmMac", "hkdfExpand", "deriveKeys", "seal", "open_"]

/-- `api`. -/
def api : Value :=
  .object (apiNames.filterMap fun name => (covenantLocals.lookup name).map (name, ·))

/-- The global object after the script has run: `root.PriestlyCovenant = api`. -/
def afterCovenant (globals : List (String × Value)) : List (String × Value) :=
  ("PriestlyCovenant", api) :: globals

/-! ### The script of the page -/

/-- The constants of a script, and the global object behind them. -/
structure Scope where
  constants : List (String × Value)
  globals : List (String × Value)

/-- What a name stands for. -/
def Scope.resolve (scope : Scope) (name : String) : Except JsError Value :=
  match scope.constants.lookup name with
  | some value => .ok value
  | none =>
      match scope.globals.lookup name with
      | some value => .ok value
      | none => .error (.referenceError name)

/-- The scope of the page's functions: `const WS_URL`, `const C = window.PriestlyCovenant` and
`function priestly`. None of the functions around the uses of a name has a variable of that name. -/
def pageScope (platform : List (String × Value)) : Scope :=
  let globals := ("priestly", .other) :: afterCovenant platform
  { constants := [("WS_URL", .other), ("C", (globals.lookup "PriestlyCovenant").getD .other)], globals }

/-- `enc(text)`, as `authenticate` calls it. -/
def Scope.encode (scope : Scope) (text : String) : Except JsError Bytes := do
  (← scope.resolve "enc").call text

/-! ### `enc` -/

/-- The page finds `enc` only where the browser itself provides it. -/
theorem resolve_enc (platform : List (String × Value)) :
    (pageScope platform).resolve "enc" =
      match platform.lookup "enc" with
      | some value => .ok value
      | none => .error (.referenceError "enc") := by
  have hconstants : (pageScope platform).constants.lookup "enc" = none := rfl
  have hglobals : (pageScope platform).globals.lookup "enc" = platform.lookup "enc" := rfl
  rw [Scope.resolve, hconstants, hglobals]

/-- Without it there, the call throws before `runCovenant` is entered. -/
theorem encode_of_none {platform : List (String × Value)} (h : platform.lookup "enc" = none)
    (text : String) : (pageScope platform).encode text = .error (.referenceError "enc") := by
  rw [Scope.encode, resolve_enc, h]
  rfl

/-- With the encoder there, the call is what `C.enc(text)` is. -/
theorem encode_of_some {platform : List (String × Value)} (h : platform.lookup "enc" = some encoder)
    (text : String) : (pageScope platform).encode text = .ok (utf8Encode text) := by
  rw [Scope.encode, resolve_enc, h]
  rfl

-- The function is an entry of `api` all the same.
example (platform : List (String × Value)) :
    ((pageScope platform).resolve "C").map (·.member? "enc") = .ok (some encoder) := rfl

end Ui

end Priestly
