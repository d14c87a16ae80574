/-
Module: Priestly.Config.Jsonx
Layer: Config
Purpose: The parser of `config.py`: the scanner that strips comments, the one that strips trailing commas,
  and the merge of the records line by line. Both scanners follow string literals with `in_string` and
  `escaped`.
Imports: Priestly.Lib.OrderedDict, Priestly.Python.Text
Trusted boundary: `loads` stands for `json.loads`
Main exports: Quoting, ScanMode, stripComments, stripTrailingCommas, Loaded, parseJsonx
-/
import Priestly.Lib.OrderedDict
import Priestly.Python.Text

namespace Priestly

/-! ### String literals -/

/-- The variables `in_string` and `escaped` of the scanners. -/
inductive Quoting where
  | outside
  | inside (escaped : Bool)
deriving DecidableEq, Repr

/-- How a character changes them. -/
def Quoting.after : Quoting → Char → Quoting
  | .outside, c => if c = doubleQuote then .inside false else .outside
  | .inside escaped, c =>
      if escaped then .inside false
      else if c = backslash then .inside true
      else if c = doubleQuote then .outside
      else .inside false

/-! ### _strip_comments -/

/-- Where the scanner of `_strip_comments` stands. The two characters that open or close a block comment
are passed together: `blockOpening` and `blockClosing` stand before the second of them. -/
inductive ScanMode where
  | text (quoting : Quoting)
  | lineComment
  | blockOpening
  | blockComment
  | blockClosing
deriving DecidableEq, Repr

namespace ScanMode

/-- A line comment starts at the character. -/
def opensLine (c : Char) (ahead : Option Char) : Bool := c = '#' || (c = '/' && ahead = some '/')

/-- A block comment starts at the character. -/
def opensBlock (c : Char) (ahead : Option Char) : Bool := c = '/' && ahead = some '*'

/-- How the scanner moves over a character; it looks one character ahead. -/
def next (mode : ScanMode) (c : Char) (ahead : Option Char) : ScanMode :=
  match mode with
  | text .outside =>
      if opensLine c ahead then lineComment
      else if opensBlock c ahead then blockOpening
      else text (Quoting.outside.after c)
  | text quoting => text (quoting.after c)
  | lineComment => if c = '\n' then text .outside else lineComment
  | blockOpening => blockComment
  | blockComment => if c = '*' ∧ ahead = some '/' then blockClosing else blockComment
  | blockClosing => text .outside

/-- Whether the character is kept. In a block comment the loop ends before the last character of the
text, so a line feed there is not kept. -/
def keeps (mode : ScanMode) (c : Char) (ahead : Option Char) : Bool :=
  match mode with
  | text .outside => !(opensLine c ahead || opensBlock c ahead)
  | text (.inside _) => true
  | lineComment => c = '\n'
  | blockComment => c = '\n' && ahead.isSome
  | blockOpening | blockClosing => false

end ScanMode

/-- The loop of `_strip_comments`. -/
def stripCommentsFrom (mode : ScanMode) : List Char → List Char
  | [] => []
  | c :: rest =>
      if mode.keeps c rest.head? then c :: stripCommentsFrom (mode.next c rest.head?) rest
      else stripCommentsFrom (mode.next c rest.head?) rest

/-- `_strip_comments`. -/
def stripComments (text : List Char) : List Char := stripCommentsFrom (.text .outside) text

/-! ### _strip_trailing_commas -/

/-- `c in " \t\r\n"`. -/
def isBlank (c : Char) : Bool := c = ' ' || c = '\t' || c = '\r' || c = '\n'

/-- Behind blanks there is a closing bracket. -/
def closesNext (rest : List Char) : Bool :=
  match (rest.dropWhile isBlank).head? with
  | some c => c = '}' || c = ']'
  | none => false

/-- The loop of `_strip_trailing_commas`. -/
def stripTrailingCommasFrom (quoting : Quoting) : List Char → List Char
  | [] => []
  | c :: rest =>
      if quoting = .outside ∧ c = ',' ∧ closesNext rest then stripTrailingCommasFrom quoting rest
      else c :: stripTrailingCommasFrom (quoting.after c) rest

/-- `_strip_trailing_commas`. -/
def stripTrailingCommas (text : List Char) : List Char := stripTrailingCommasFrom .outside text

/-! ### parse_jsonx -/

/-- What `json.loads` returns: a dictionary, or a value of another type. -/
inductive Loaded (κ ν : Type) where
  | record (entries : OrderedDict κ ν)
  | other (value : ν)

variable {κ ν : Type} [DecidableEq κ]

/-- The loop of `parse_jsonx` over the lines. -/
def mergeLines (loads : List Char → Except Exn (Loaded κ ν)) :
    Nat → OrderedDict κ ν → List (List Char) → Except Exn (OrderedDict κ ν)
  | _, merged, [] => .ok merged
  | lineno, merged, line :: lines =>
      if strip line = [] then mergeLines loads (lineno + 1) merged lines
      else
        match loads line with
        | .error (.jsonDecodeError text) =>
            .error (.valueError s!"config line {lineno}: invalid JSON ({text})")
        | .error exn => .error exn
        | .ok (.other _) =>
            .error (.valueError s!"config line {lineno}: each record must be a JSON object")
        | .ok (.record record) => mergeLines loads (lineno + 1) (merged.update record) lines

/-- `parse_jsonx`. -/
def parseJsonx (loads : List Char → Except Exn (Loaded κ ν)) (text : List Char) :
    Except Exn (OrderedDict κ ν) :=
  mergeLines loads 1 .empty (splitlines (stripTrailingCommas (stripComments text)))

end Priestly
