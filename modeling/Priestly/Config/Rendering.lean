/-
Module: Priestly.Config.Rendering
Layer: Config
Purpose: What a JSONX text looks like, independent of the code that reads it: lines that hold one JSON
  value each, with spaces, tabs and block comments between its tokens, a comma before a closing bracket,
  and a line comment at the end; and lines with nothing but comments.
Imports: Priestly.Config.Jsonx
Trusted boundary: none
Main exports: StringChar, Lexeme, Tree, RecordLine, DocLine, docText, docRecords
-/
import Priestly.Config.Jsonx

namespace Priestly

open ByteCodec

/-! ### Tokens -/

/-- The characters that may follow a backslash alone. -/
def simpleEscapes : List Char := [doubleQuote, backslash, '/', 'b', 'f', 'n', 'r', 't']

/-- A character of a string literal: itself, or an escape. -/
inductive StringChar where
  | plain (c : Char) (raw : c ≠ doubleQuote ∧ c ≠ backslash ∧ 0x20 ≤ c.toNat)
  | escape (c : Char) (known : c ∈ simpleEscapes)
  | unicode (digits : List Char) (four : digits.length = 4)
      (hex : ∀ c ∈ digits, (hexValue? c).isSome = true)

/-- How it is written. -/
def StringChar.text : StringChar → List Char
  | plain c _ => [c]
  | escape c _ => [backslash, c]
  | unicode digits _ _ => backslash :: 'u' :: digits

/-- A character of `null`, `true`, `false` or a number. -/
def isScalarChar (c : Char) : Bool := c.isAlphanum || c = '+' || c = '-' || c = '.'

/-- The text of `null`, `true`, `false` or a number. -/
structure ScalarText where
  text : List Char
  nonempty : text ≠ []
  plain : ∀ c ∈ text, isScalarChar c = true

/-- What stands between `/*` and `*/`. -/
structure BlockText where
  content : List Char
  unclosed : ¬ ['*', '/'] <:+: content

/-- What stands behind `//` or `#` on a line. -/
structure LineText where
  slashes : Bool
  content : List Char
  oneLine : '\n' ∉ content

/-- A line comment as it is written. -/
def LineText.text (comment : LineText) : List Char :=
  (if comment.slashes then ['/', '/'] else ['#']) ++ comment.content

/-- Brackets and the colon. -/
inductive Punctuation where
  | openBrace
  | closeBrace
  | openBracket
  | closeBracket
  | colon
deriving DecidableEq, Repr

namespace Punctuation

/-- The character. -/
def char : Punctuation → Char
  | openBrace => '{'
  | closeBrace => '}'
  | openBracket => '['
  | closeBracket => ']'
  | colon => ':'

/-- A bracket that closes. -/
def closes : Punctuation → Bool
  | closeBrace | closeBracket => true
  | openBrace | openBracket | colon => false

end Punctuation

/-- The parts of a text. A line comment counts with the line feed behind it. -/
inductive Lexeme where
  | space
  | tab
  | newline
  | block (comment : BlockText)
  | lineComment (comment : LineText)
  | punctuation (mark : Punctuation)
  | comma
  | trailingComma
  | scalar (token : ScalarText)
  | string (chars : List StringChar)

namespace Lexeme

/-- A string literal as it is written. -/
def literal (chars : List StringChar) : List Char :=
  doubleQuote :: chars.flatMap StringChar.text ++ [doubleQuote]

/-- How a part is written. -/
def text : Lexeme → List Char
  | space => [' ']
  | tab => ['\t']
  | newline => ['\n']
  | block comment => '/' :: '*' :: comment.content ++ ['*', '/']
  | lineComment comment => comment.text ++ ['\n']
  | punctuation mark => [mark.char]
  | comma | trailingComma => [',']
  | scalar token => token.text
  | string chars => literal chars

/-- What is left of it without comments: the line feeds. -/
def uncommented : Lexeme → List Char
  | block comment => comment.content.filter (· = '\n')
  | lineComment _ => ['\n']
  | lexeme => lexeme.text

/-- What is left of it without comments and trailing commas. -/
def plain : Lexeme → List Char
  | trailingComma => []
  | lexeme => lexeme.uncommented

/-- Parts that stand between tokens. -/
def isGap : Lexeme → Bool
  | space | tab | newline | block _ | lineComment _ => true
  | punctuation _ | comma | trailingComma | scalar _ | string _ => false

/-- A bracket that closes. -/
def closes : Lexeme → Bool
  | punctuation mark => mark.closes
  | _ => false

/-- The characters of a string literal that stand for themselves. -/
def rawChars : Lexeme → List Char
  | string chars => chars.filterMap fun
      | .plain c _ => some c
      | _ => none
  | _ => []

end Lexeme

/-! ### JSON with gaps -/

/-- What may stand between two tokens of a value: a space, a tab, or a block comment on one line. -/
inductive Spacing where
  | space
  | tab
  | block (comment : BlockText) (oneLine : '\n' ∉ comment.content)

/-- A gap between two tokens. -/
abbrev Gap := List Spacing

/-- The parts of a gap. -/
def Gap.lexemes (gap : Gap) : List Lexeme :=
  gap.map fun
    | .space => .space
    | .tab => .tab
    | .block comment _ => .block comment

mutual

/-- A JSON value with the gaps inside it. -/
inductive Tree where
  | scalar (token : ScalarText)
  | string (chars : List StringChar)
  | emptyArray (gap : Gap)
  | array (items : Items)
  | emptyObject (gap : Gap)
  | object (members : Members)

/-- The items of an array, with the gaps around them. A comma may stand behind the last one. -/
inductive Items where
  | last (before : Gap) (value : Tree) (after : Gap) (trailing : Option Gap)
  | cons (before : Gap) (value : Tree) (after : Gap) (items : Items)

/-- The members of an object. -/
inductive Members where
  | last (before : Gap) (key : List StringChar) (beforeColon afterColon : Gap) (value : Tree) (after : Gap)
      (trailing : Option Gap)
  | cons (before : Gap) (key : List StringChar) (beforeColon afterColon : Gap) (value : Tree) (after : Gap)
      (members : Members)

end

/-- A comma behind the last item, and the gap behind it. -/
def trailingLexemes : Option Gap → List Lexeme
  | none => []
  | some gap => .trailingComma :: gap.lexemes

mutual

/-- The parts of a value. -/
def Tree.lexemes : Tree → List Lexeme
  | .scalar token => [.scalar token]
  | .string chars => [.string chars]
  | .emptyArray gap => .punctuation .openBracket :: (gap.lexemes ++ [.punctuation .closeBracket])
  | .array items => .punctuation .openBracket :: (items.lexemes ++ [.punctuation .closeBracket])
  | .emptyObject gap => .punctuation .openBrace :: (gap.lexemes ++ [.punctuation .closeBrace])
  | .object members => .punctuation .openBrace :: (members.lexemes ++ [.punctuation .closeBrace])

/-- The parts of the items of an array. -/
def Items.lexemes : Items → List Lexeme
  | .last before value after trailing =>
      before.lexemes ++ value.lexemes ++ after.lexemes ++ trailingLexemes trailing
  | .cons before value after items =>
      before.lexemes ++ value.lexemes ++ after.lexemes ++ .comma :: items.lexemes

/-- The parts of the members of an object. -/
def Members.lexemes : Members → List Lexeme
  | .last before key beforeColon afterColon value after trailing =>
      before.lexemes ++ .string key :: (beforeColon.lexemes ++ .punctuation .colon ::
        (afterColon.lexemes ++ value.lexemes ++ after.lexemes ++ trailingLexemes trailing))
  | .cons before key beforeColon afterColon value after members =>
      before.lexemes ++ .string key :: (beforeColon.lexemes ++ .punctuation .colon ::
        (afterColon.lexemes ++ value.lexemes ++ after.lexemes ++ .comma :: members.lexemes))

end

/-! ### Documents -/

/-- What a line without a record consists of: gaps, and block comments over any number of lines. -/
inductive Filler where
  | space
  | tab
  | block (comment : BlockText)

/-- The parts of filler. -/
def Filler.lexeme : Filler → Lexeme
  | space => .space
  | tab => .tab
  | block comment => .block comment

/-- A line that holds a value. -/
structure RecordLine where
  before : Gap
  value : Tree
  after : Gap
  comment : Option LineText

/-- The end of a line, with a comment or without. -/
def lineEnd : Option LineText → Lexeme
  | none => .newline
  | some comment => .lineComment comment

/-- The parts of a line that holds a value, up to its end. -/
def RecordLine.lexemes (line : RecordLine) : List Lexeme :=
  line.before.lexemes ++ line.value.lexemes ++ line.after.lexemes

/-- The value as JSON: without comments and trailing commas. -/
def RecordLine.json (line : RecordLine) : List Char := line.lexemes.flatMap Lexeme.plain

/-- A line of a document, or several that hold a block comment. -/
inductive DocLine where
  | filler (pieces : List Filler) (comment : Option LineText)
  | record (line : RecordLine)

/-- The parts of a line of a document. -/
def DocLine.lexemes : DocLine → List Lexeme
  | filler pieces comment => pieces.map Filler.lexeme ++ [lineEnd comment]
  | record line => line.lexemes ++ [lineEnd line.comment]

/-- The parts of a document. -/
def docLexemes (doc : List DocLine) : List Lexeme := doc.flatMap DocLine.lexemes

/-- The text of a document. -/
def docText (doc : List DocLine) : List Char := (docLexemes doc).flatMap Lexeme.text

/-- The lines of a document that hold values. -/
def docRecords (doc : List DocLine) : List RecordLine :=
  doc.filterMap fun
    | .filler _ _ => none
    | .record line => some line

end Priestly
