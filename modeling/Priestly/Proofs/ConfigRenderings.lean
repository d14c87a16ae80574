/-
Module: Priestly.Proofs.ConfigRenderings
Layer: Proofs
Purpose: Every rendering of a list of records is parsed to their merge, exactly when no string literal
  holds one of the three line breaks of Unicode as it is: `str.splitlines` cuts a literal there.
Imports: Priestly.Config.Rendering, Priestly.Proofs.Scanners
Trusted boundary: none
Main exports: stripComments_docText, stripTrailingCommas_doc, recordLines_doc, config_renderings_iff
-/
import Priestly.Config.Rendering
import Priestly.Proofs.Scanners

namespace Priestly

open ByteCodec

/-! ### String literals -/

/-- A character that neither ends the literal nor escapes the next one. -/
theorem inside_after {c : Char} (hquote : c ≠ doubleQuote) (hslash : c ≠ backslash) :
    (Quoting.inside false).after c = .inside false := by
  rw [Quoting.after, if_neg (by simp), if_neg hslash, if_neg hquote]

theorem quotingAfter_inside {text : List Char} (h : ∀ c ∈ text, c ≠ doubleQuote ∧ c ≠ backslash) :
    quotingAfter (.inside false) text = .inside false := by
  induction text with
  | nil => rfl
  | cons c rest ih =>
      have hc := h c List.mem_cons_self
      rw [quotingAfter_cons, inside_after hc.1 hc.2]
      exact ih fun d hd => h d (List.mem_cons_of_mem c hd)

/-- A hexadecimal digit is neither a quote nor a backslash. -/
theorem ne_of_hexValue {c : Char} (h : (hexValue? c).isSome = true) : c ≠ doubleQuote ∧ c ≠ backslash := by
  constructor
  · rintro rfl
    exact absurd h (by decide)
  · rintro rfl
    exact absurd h (by decide)

/-- A character of a literal does not end it. -/
theorem quotingAfter_stringChar (char : StringChar) :
    quotingAfter (.inside false) char.text = .inside false := by
  cases char with
  | plain c raw =>
      apply quotingAfter_inside
      intro d hd
      rw [List.mem_singleton.mp hd]
      exact ⟨raw.1, raw.2.1⟩
  | escape c known => rfl
  | unicode digits four hex =>
      have hdigits : quotingAfter (.inside false) digits = .inside false :=
        quotingAfter_inside fun c hc => ne_of_hexValue (hex c hc)
      exact hdigits

theorem quotingAfter_stringChars (chars : List StringChar) :
    quotingAfter (.inside false) (chars.flatMap StringChar.text) = .inside false := by
  induction chars with
  | nil => rfl
  | cons char chars ih => rw [List.flatMap_cons, quotingAfter_append, quotingAfter_stringChar, ih]

/-- A scanner that copies what stands inside of literals. -/
structure CopiesLiterals (scan : Quoting → List Char → List Char) : Prop where
  quote : ∀ rest, scan .outside (doubleQuote :: rest) = doubleQuote :: scan (.inside false) rest
  inside : ∀ escaped c rest,
    scan (.inside escaped) (c :: rest) = c :: scan ((Quoting.inside escaped).after c) rest

theorem copiesLiterals_stripComments : CopiesLiterals fun quoting => stripCommentsFrom (.text quoting) where
  quote _ := rfl
  inside _ _ _ := rfl

theorem copiesLiterals_stripTrailingCommas : CopiesLiterals stripTrailingCommasFrom where
  quote _ := rfl
  inside := by
    intro escaped c rest
    rw [stripTrailingCommasFrom, if_neg (by simp)]

namespace CopiesLiterals

variable {scan : Quoting → List Char → List Char}

theorem plain (h : CopiesLiterals scan) {text : List Char} (rest : List Char)
    (hplain : ∀ c ∈ text, c ≠ doubleQuote ∧ c ≠ backslash) :
    scan (.inside false) (text ++ rest) = text ++ scan (.inside false) rest := by
  induction text with
  | nil => rfl
  | cons c text ih =>
      have hc := hplain c List.mem_cons_self
      rw [List.cons_append, h.inside, inside_after hc.1 hc.2, List.cons_append,
        ih fun d hd => hplain d (List.mem_cons_of_mem c hd)]

theorem stringChar (h : CopiesLiterals scan) (char : StringChar) (rest : List Char) :
    scan (.inside false) (char.text ++ rest) = char.text ++ scan (.inside false) rest := by
  cases char with
  | plain c raw =>
      apply h.plain
      intro d hd
      rw [List.mem_singleton.mp hd]
      exact ⟨raw.1, raw.2.1⟩
  | escape c known =>
      calc scan (.inside false) (backslash :: c :: rest)
        _ = backslash :: scan (.inside true) (c :: rest) := h.inside false backslash (c :: rest)
        _ = backslash :: c :: scan (.inside false) rest := congrArg (backslash :: ·) (h.inside true c rest)
  | unicode digits four hex =>
      have hdigits := h.plain rest fun c hc => ne_of_hexValue (hex c hc)
      calc scan (.inside false) (backslash :: 'u' :: (digits ++ rest))
        _ = backslash :: scan (.inside true) ('u' :: (digits ++ rest)) := h.inside false backslash _
        _ = backslash :: 'u' :: scan (.inside false) (digits ++ rest) :=
            congrArg (backslash :: ·) (h.inside true 'u' _)
        _ = backslash :: 'u' :: (digits ++ scan (.inside false) rest) := by rw [hdigits]

/-- A literal is copied, and the scan is outside of it again. -/
theorem literal (h : CopiesLiterals scan) (chars : List StringChar) (rest : List Char) :
    scan .outside (Lexeme.literal chars ++ rest) = Lexeme.literal chars ++ scan .outside rest := by
  have hchars : ∀ chars : List StringChar,
      scan (.inside false) (chars.flatMap StringChar.text ++ doubleQuote :: rest) =
        chars.flatMap StringChar.text ++ doubleQuote :: scan .outside rest := by
    intro chars
    induction chars with
    | nil => exact h.inside false doubleQuote rest
    | cons char chars ih => rw [List.flatMap_cons, List.append_assoc, h.stringChar, ih, List.append_assoc]
  have hsplit : ∀ rest, Lexeme.literal chars ++ rest =
      doubleQuote :: (chars.flatMap StringChar.text ++ doubleQuote :: rest) := by
    intro rest
    simp [Lexeme.literal]
  rw [hsplit, hsplit, h.quote, hchars]

end CopiesLiterals

/-! ### Comments -/

/-- A character that neither starts a comment nor a literal is kept. -/
theorem stripCommentsFrom_char {c : Char} (rest : List Char) (h : c ≠ '#' ∧ c ≠ '/' ∧ c ≠ doubleQuote) :
    stripCommentsFrom (.text .outside) (c :: rest) = c :: stripCommentsFrom (.text .outside) rest := by
  have hline : ScanMode.opensLine c rest.head? = false := by simp [ScanMode.opensLine, h.1, h.2.1]
  have hblock : ScanMode.opensBlock c rest.head? = false := by simp [ScanMode.opensBlock, h.2.1]
  rw [stripCommentsFrom, ScanMode.keeps, ScanMode.next, hline, hblock, Quoting.outside_after h.2.2]
  rfl

theorem stripCommentsFrom_chars {text : List Char} (rest : List Char)
    (h : ∀ c ∈ text, c ≠ '#' ∧ c ≠ '/' ∧ c ≠ doubleQuote) :
    stripCommentsFrom (.text .outside) (text ++ rest) = text ++ stripCommentsFrom (.text .outside) rest := by
  induction text with
  | nil => rfl
  | cons c text ih =>
      rw [List.cons_append, stripCommentsFrom_char _ (h c List.mem_cons_self), List.cons_append,
        ih fun d hd => h d (List.mem_cons_of_mem c hd)]

/-- Of a block comment the line feeds are kept. -/
theorem stripCommentsFrom_content {content : List Char} (rest : List Char) (h : ¬ ['*', '/'] <:+: content) :
    stripCommentsFrom .blockComment (content ++ '*' :: '/' :: rest) =
      content.filter (· = '\n') ++ stripCommentsFrom (.text .outside) rest := by
  induction content with
  | nil => rfl
  | cons c content ih =>
      have hlater : ¬ ['*', '/'] <:+: content := fun hcontains => h (hcontains.trans (List.suffix_cons c content).isInfix)
      have hnext : ScanMode.blockComment.next c (content ++ '*' :: '/' :: rest).head? = .blockComment := by
        rw [ScanMode.next, if_neg]
        rintro ⟨rfl, hahead⟩
        cases content with
        | nil => simp at hahead
        | cons d content =>
            have hd : d = '/' := by simpa using hahead
            rw [hd] at h
            exact h ⟨[], content, rfl⟩
      have hkeeps : ScanMode.blockComment.keeps c (content ++ '*' :: '/' :: rest).head? = decide (c = '\n') := by
        cases content with
        | nil => simp [ScanMode.keeps]
        | cons d content => simp [ScanMode.keeps]
      rw [List.cons_append, stripCommentsFrom, hnext, hkeeps, ih hlater]
      by_cases hc : c = '\n'
      · simp [hc]
      · simp [hc]

/-- A line comment is dropped up to the line feed. -/
theorem stripCommentsFrom_line {content : List Char} (rest : List Char) (h : '\n' ∉ content) :
    stripCommentsFrom .lineComment (content ++ '\n' :: rest) =
      '\n' :: stripCommentsFrom (.text .outside) rest := by
  induction content with
  | nil => rfl
  | cons c content ih =>
      rw [List.mem_cons, not_or] at h
      have hc : c ≠ '\n' := Ne.symm h.1
      rw [List.cons_append, stripCommentsFrom, ScanMode.keeps, ScanMode.next, if_neg hc, if_neg (by simp [hc])]
      exact ih h.2

/-- A character of a number or a name. -/
theorem ne_of_isScalarChar {c : Char} (h : isScalarChar c = true) {d : Char} (hd : isScalarChar d = false) :
    c ≠ d := by
  rintro rfl
  rw [h] at hd
  cases hd

/-- Without its comments, a part leaves what it should. -/
theorem stripCommentsFrom_lexeme (lexeme : Lexeme) (rest : List Char) :
    stripCommentsFrom (.text .outside) (lexeme.text ++ rest) =
      lexeme.uncommented ++ stripCommentsFrom (.text .outside) rest := by
  cases lexeme with
  | space => rfl
  | tab => rfl
  | newline => rfl
  | block comment =>
      have hopen : Lexeme.text (.block comment) ++ rest = '/' :: '*' :: (comment.content ++ '*' :: '/' :: rest) := by
        simp [Lexeme.text]
      rw [hopen]
      exact stripCommentsFrom_content rest comment.unclosed
  | lineComment comment =>
      have hcontent := stripCommentsFrom_line rest comment.oneLine
      obtain ⟨slashes, content, oneLine⟩ := comment
      cases slashes with
      | true =>
          have hopen : Lexeme.text (.lineComment ⟨true, content, oneLine⟩) ++ rest =
              '/' :: '/' :: (content ++ '\n' :: rest) := by
            simp [Lexeme.text, LineText.text]
          rw [hopen]
          exact hcontent
      | false =>
          have hopen : Lexeme.text (.lineComment ⟨false, content, oneLine⟩) ++ rest =
              '#' :: (content ++ '\n' :: rest) := by
            simp [Lexeme.text, LineText.text]
          rw [hopen]
          exact hcontent
  | punctuation mark =>
      apply stripCommentsFrom_chars
      intro c hc
      rw [List.mem_singleton.mp hc]
      cases mark <;> decide
  | comma => rfl
  | trailingComma => rfl
  | scalar token =>
      apply stripCommentsFrom_chars
      intro c hc
      have hscalar := token.plain c hc
      exact ⟨ne_of_isScalarChar hscalar (by decide), ne_of_isScalarChar hscalar (by decide),
        ne_of_isScalarChar hscalar (by decide)⟩
  | string chars => exact copiesLiterals_stripComments.literal chars rest

/-- Without its comments, a document leaves what its parts leave. -/
theorem stripComments_lexemes (lexemes : List Lexeme) :
    stripComments (lexemes.flatMap Lexeme.text) = lexemes.flatMap Lexeme.uncommented := by
  induction lexemes with
  | nil => rfl
  | cons lexeme lexemes ih =>
      rw [List.flatMap_cons, stripComments, stripCommentsFrom_lexeme, List.flatMap_cons, ← ih]
      rfl

/-! ### Trailing commas -/

/-- The first part that is no gap. -/
def nextToken : List Lexeme → Option Lexeme
  | [] => none
  | lexeme :: rest => if lexeme.isGap then nextToken rest else some lexeme

/-- A closing bracket comes next behind a trailing comma, and not behind another comma. -/
def WellPlaced : List Lexeme → Prop
  | [] => True
  | .comma :: rest => (∃ token, nextToken rest = some token ∧ token.closes = false) ∧ WellPlaced rest
  | .trailingComma :: rest => (∃ token, nextToken rest = some token ∧ token.closes = true) ∧ WellPlaced rest
  | _ :: rest => WellPlaced rest

/-- A part that is no comma has its place anywhere. -/
theorem wellPlaced_cons {lexeme : Lexeme} {rest : List Lexeme} (hcomma : lexeme ≠ .comma)
    (htrailing : lexeme ≠ .trailingComma) : WellPlaced (lexeme :: rest) ↔ WellPlaced rest := by
  cases lexeme with
  | comma => exact absurd rfl hcomma
  | trailingComma => exact absurd rfl htrailing
  | space => exact Iff.rfl
  | tab => exact Iff.rfl
  | newline => exact Iff.rfl
  | block comment => exact Iff.rfl
  | lineComment comment => exact Iff.rfl
  | punctuation mark => exact Iff.rfl
  | scalar token => exact Iff.rfl
  | string chars => exact Iff.rfl

/-- A gap leaves blanks. -/
theorem isBlank_of_isGap {lexeme : Lexeme} (h : lexeme.isGap = true) :
    lexeme.uncommented.all isBlank = true := by
  cases lexeme with
  | space => rfl
  | tab => rfl
  | newline => rfl
  | lineComment comment => rfl
  | block comment =>
      rw [Lexeme.uncommented, List.all_eq_true]
      intro c hc
      have hnewline := (List.mem_filter.mp hc).2
      rw [decide_eq_true_eq] at hnewline
      rw [hnewline]
      rfl
  | punctuation mark => cases h
  | comma => cases h
  | trailingComma => cases h
  | scalar token => cases h
  | string chars => cases h

/-- A token starts with a character that is no blank, and closes when it is a closing bracket. -/
theorem exists_head_of_token {lexeme : Lexeme} (h : lexeme.isGap = false) :
    ∃ c rest, lexeme.uncommented = c :: rest ∧ isBlank c = false ∧
      (decide (c = '}') || decide (c = ']')) = lexeme.closes := by
  cases lexeme with
  | space => cases h
  | tab => cases h
  | newline => cases h
  | lineComment comment => cases h
  | block comment => cases h
  | punctuation mark => exact ⟨mark.char, [], rfl, by cases mark <;> decide, by cases mark <;> decide⟩
  | comma => exact ⟨',', [], rfl, by decide, by decide⟩
  | trailingComma => exact ⟨',', [], rfl, by decide, by decide⟩
  | scalar token =>
      obtain ⟨text, nonempty, plain⟩ := token
      cases text with
      | nil => exact absurd rfl nonempty
      | cons c text =>
          have hc := plain c List.mem_cons_self
          have hblank : isBlank c = false := by
            simp [isBlank, ne_of_isScalarChar hc (d := ' ') (by decide), ne_of_isScalarChar hc (d := '\t') (by decide),
              ne_of_isScalarChar hc (d := '\r') (by decide), ne_of_isScalarChar hc (d := '\n') (by decide)]
          have hclose : (decide (c = '}') || decide (c = ']')) = false := by
            simp [ne_of_isScalarChar hc (d := '}') (by decide), ne_of_isScalarChar hc (d := ']') (by decide)]
          exact ⟨c, text, rfl, hblank, hclose⟩
  | string chars =>
      have hclose : (decide (doubleQuote = '}') || decide (doubleQuote = ']')) = false := by decide
      exact ⟨doubleQuote, _, rfl, by decide, hclose⟩

/-- What comes next decides whether a bracket closes behind blanks. -/
theorem closesNext_lexemes {lexemes : List Lexeme} {token : Lexeme} (h : nextToken lexemes = some token) :
    closesNext (lexemes.flatMap Lexeme.uncommented) = token.closes := by
  induction lexemes with
  | nil => cases h
  | cons lexeme lexemes ih =>
      rw [nextToken] at h
      rw [List.flatMap_cons]
      cases hgap : lexeme.isGap with
      | true =>
          rw [hgap, if_pos rfl] at h
          have hblanks := List.all_eq_true.mp (isBlank_of_isGap hgap)
          rw [closesNext, List.dropWhile_append_of_pos hblanks]
          exact ih h
      | false =>
          rw [hgap, if_neg (by simp)] at h
          obtain rfl := Option.some.inj h
          obtain ⟨c, rest, htext, hblank, hclose⟩ := exists_head_of_token hgap
          rw [closesNext, htext, List.cons_append, List.dropWhile_cons_of_neg (by simp [hblank])]
          exact hclose

/-- A character outside of literals that is no comma is kept. -/
theorem stripTrailingCommasFrom_chars {text : List Char} (rest : List Char)
    (h : ∀ c ∈ text, c ≠ ',' ∧ c ≠ doubleQuote) :
    stripTrailingCommasFrom .outside (text ++ rest) = text ++ stripTrailingCommasFrom .outside rest := by
  induction text with
  | nil => rfl
  | cons c text ih =>
      have hc := h c List.mem_cons_self
      rw [List.cons_append, stripTrailingCommasFrom, if_neg (by simp [hc.1]), Quoting.outside_after hc.2,
        ih fun d hd => h d (List.mem_cons_of_mem c hd), List.cons_append]

/-- A blank is no comma and no quote. -/
theorem ne_of_isBlank {c : Char} (h : isBlank c = true) : c ≠ ',' ∧ c ≠ doubleQuote := by
  constructor
  · rintro rfl
    exact absurd h (by decide)
  · rintro rfl
    exact absurd h (by decide)

/-- A part that is no comma is kept. -/
theorem stripTrailingCommasFrom_lexeme {lexeme : Lexeme} (rest : List Char) (hcomma : lexeme ≠ .comma)
    (htrailing : lexeme ≠ .trailingComma) :
    stripTrailingCommasFrom .outside (lexeme.uncommented ++ rest) =
      lexeme.plain ++ stripTrailingCommasFrom .outside rest := by
  have hgap : lexeme.isGap = true → stripTrailingCommasFrom .outside (lexeme.uncommented ++ rest) =
      lexeme.uncommented ++ stripTrailingCommasFrom .outside rest := by
    intro hgap
    apply stripTrailingCommasFrom_chars
    intro c hc
    exact ne_of_isBlank (List.all_eq_true.mp (isBlank_of_isGap hgap) c hc)
  cases lexeme with
  | comma => exact absurd rfl hcomma
  | trailingComma => exact absurd rfl htrailing
  | space => exact hgap rfl
  | tab => exact hgap rfl
  | newline => exact hgap rfl
  | block comment => exact hgap rfl
  | lineComment comment => exact hgap rfl
  | punctuation mark =>
      apply stripTrailingCommasFrom_chars
      intro c hc
      rw [List.mem_singleton.mp hc]
      cases mark <;> decide
  | scalar token =>
      apply stripTrailingCommasFrom_chars
      intro c hc
      have hscalar := token.plain c hc
      exact ⟨ne_of_isScalarChar hscalar (by decide), ne_of_isScalarChar hscalar (by decide)⟩
  | string chars => exact copiesLiterals_stripTrailingCommas.literal chars rest

/-- Without its trailing commas, a document leaves what its parts leave. -/
theorem stripTrailingCommas_lexemes {lexemes : List Lexeme} (h : WellPlaced lexemes) :
    stripTrailingCommas (lexemes.flatMap Lexeme.uncommented) = lexemes.flatMap Lexeme.plain := by
  induction lexemes with
  | nil => rfl
  | cons lexeme lexemes ih =>
      rw [List.flatMap_cons, List.flatMap_cons, stripTrailingCommas]
      by_cases hcomma : lexeme = .comma
      · rw [hcomma] at h ⊢
        obtain ⟨⟨token, hnext, hcloses⟩, hrest⟩ := h
        have hstay : closesNext (lexemes.flatMap Lexeme.uncommented) = false :=
          (closesNext_lexemes hnext).trans hcloses
        have hkept : stripTrailingCommasFrom .outside (',' :: lexemes.flatMap Lexeme.uncommented) =
            ',' :: stripTrailingCommasFrom .outside (lexemes.flatMap Lexeme.uncommented) := by
          rw [stripTrailingCommasFrom, if_neg (by simp [hstay])]
          rfl
        exact hkept.trans (congrArg (',' :: ·) (ih hrest))
      · by_cases htrailing : lexeme = .trailingComma
        · rw [htrailing] at h ⊢
          obtain ⟨⟨token, hnext, hcloses⟩, hrest⟩ := h
          have hdrop : closesNext (lexemes.flatMap Lexeme.uncommented) = true :=
            (closesNext_lexemes hnext).trans hcloses
          have hdropped : stripTrailingCommasFrom .outside (',' :: lexemes.flatMap Lexeme.uncommented) =
              stripTrailingCommasFrom .outside (lexemes.flatMap Lexeme.uncommented) := by
            rw [stripTrailingCommasFrom, if_pos ⟨rfl, rfl, hdrop⟩]
          exact hdropped.trans (ih hrest)
        · rw [stripTrailingCommasFrom_lexeme _ hcomma htrailing, ← ih ((wellPlaced_cons hcomma htrailing).mp h)]
          rfl

/-! ### Values -/

/-- A gap does not change what comes next. -/
theorem nextToken_gap (gap : Gap) (rest : List Lexeme) : nextToken (gap.lexemes ++ rest) = nextToken rest := by
  induction gap with
  | nil => rfl
  | cons spacing gap ih =>
      cases spacing with
      | space => exact ih
      | tab => exact ih
      | block comment oneLine => exact ih

theorem wellPlaced_gap (gap : Gap) (rest : List Lexeme) : WellPlaced (gap.lexemes ++ rest) ↔ WellPlaced rest := by
  induction gap with
  | nil => exact Iff.rfl
  | cons spacing gap ih =>
      cases spacing with
      | space => exact ih
      | tab => exact ih
      | block comment oneLine => exact ih

/-- The letters and the digits. -/
theorem isAlphanum_eq (c : Char) : c.isAlphanum =
    ((decide (c.val ≥ 65 ∧ c.val ≤ 90) || decide (c.val ≥ 97) && decide (c.val ≤ 122)) ||
      decide (c.val ≥ 48) && decide (c.val ≤ 57)) := rfl

/-- Where the characters of numbers and names lie. -/
theorem range_of_isScalarChar {c : Char} (h : isScalarChar c = true) : 43 ≤ c.toNat ∧ c.toNat ≤ 122 := by
  simp only [isScalarChar, isAlphanum_eq, Bool.or_eq_true, Bool.and_eq_true, decide_eq_true_eq, ge_iff_le,
    UInt32.le_iff_toNat_le] at h
  rcases h with ((((⟨hlow, hhigh⟩ | ⟨hlow, hhigh⟩) | ⟨hlow, hhigh⟩) | rfl) | rfl) | rfl
  · exact ⟨Nat.le_trans (by decide) hlow, Nat.le_trans hhigh (by decide)⟩
  · exact ⟨Nat.le_trans (by decide) hlow, Nat.le_trans hhigh (by decide)⟩
  · exact ⟨Nat.le_trans (by decide) hlow, Nat.le_trans hhigh (by decide)⟩
  · decide
  · decide
  · decide

/-- Where the spaces lie. -/
theorem range_of_isStrSpace {c : Char} (h : isStrSpace c = true) : c.toNat ≤ 32 ∨ 0x85 ≤ c.toNat := by
  simp only [isStrSpace, isCSpace, isUnicodeSpace, List.mem_cons, List.not_mem_nil, or_false,
    Bool.or_eq_true, Bool.and_eq_true, decide_eq_true_eq] at h
  rcases h with ((rfl | h) | h) | h
  · exact .inl (le_refl _)
  · omega
  · omega
  · omega

/-- A line break is a space. -/
theorem isStrSpace_of_isLineBreak {c : Char} (h : isLineBreak c = true) : isStrSpace c = true := by
  simp only [isLineBreak, List.mem_cons, List.not_mem_nil, or_false, decide_eq_true_eq] at h
  simp only [isStrSpace, isCSpace, isUnicodeSpace, List.mem_cons, List.not_mem_nil, or_false,
    Bool.or_eq_true, Bool.and_eq_true, decide_eq_true_eq]
  omega
/-- A character of a number or a name is no space. -/
theorem isStrSpace_of_isScalarChar {c : Char} (h : isScalarChar c = true) : isStrSpace c = false := by
  have hrange := range_of_isScalarChar h
  apply Bool.eq_false_of_not_eq_true
  intro hspace
  have hspaces := range_of_isStrSpace hspace
  omega

/-- A value starts with a token that does not close. -/
theorem Tree.exists_first (tree : Tree) :
    ∃ token more, tree.lexemes = token :: more ∧ token.isGap = false ∧ token.closes = false ∧
      ∃ c ∈ token.plain, isStrSpace c = false := by
  cases tree with
  | scalar token =>
      obtain ⟨text, nonempty, plain⟩ := token
      refine ⟨_, [], rfl, rfl, rfl, ?_⟩
      cases text with
      | nil => exact absurd rfl nonempty
      | cons c text =>
          exact ⟨c, List.mem_cons_self, isStrSpace_of_isScalarChar (plain c List.mem_cons_self)⟩
  | string chars => exact ⟨_, [], rfl, rfl, rfl, doubleQuote, List.mem_cons_self, by decide⟩
  | emptyArray gap => exact ⟨_, _, rfl, rfl, rfl, '[', List.mem_cons_self, by decide⟩
  | array items => exact ⟨_, _, rfl, rfl, rfl, '[', List.mem_cons_self, by decide⟩
  | emptyObject gap => exact ⟨_, _, rfl, rfl, rfl, '{', List.mem_cons_self, by decide⟩
  | object members => exact ⟨_, _, rfl, rfl, rfl, '{', List.mem_cons_self, by decide⟩

/-- A value comes next behind a gap. -/
theorem nextToken_tree (gap : Gap) (tree : Tree) (rest : List Lexeme) :
    ∃ token, nextToken (gap.lexemes ++ (tree.lexemes ++ rest)) = some token ∧ token.closes = false := by
  obtain ⟨token, more, hlexemes, hgap, hcloses, _⟩ := tree.exists_first
  refine ⟨token, ?_, hcloses⟩
  rw [nextToken_gap, hlexemes, List.cons_append, nextToken, hgap, if_neg (by simp)]

/-- Items start with a token that does not close. -/
theorem Items.nextToken (items : Items) (rest : List Lexeme) :
    ∃ token, Priestly.nextToken (items.lexemes ++ rest) = some token ∧ token.closes = false := by
  cases items with
  | last before value after trailing =>
      rw [Items.lexemes]
      simp only [List.append_assoc]
      exact nextToken_tree before value _
  | cons before value after items =>
      rw [Items.lexemes]
      simp only [List.append_assoc]
      exact nextToken_tree before value _

/-- Members start with a key. -/
theorem Members.nextToken (members : Members) (rest : List Lexeme) :
    ∃ token, Priestly.nextToken (members.lexemes ++ rest) = some token ∧ token.closes = false := by
  cases members with
  | last before key beforeColon afterColon value after trailing =>
      rw [Members.lexemes]
      simp only [List.append_assoc]
      exact ⟨.string key, nextToken_gap before _, rfl⟩
  | cons before key beforeColon afterColon value after members =>
      rw [Members.lexemes]
      simp only [List.append_assoc]
      exact ⟨.string key, nextToken_gap before _, rfl⟩

/-- A comma behind the last item has its place before the bracket. -/
theorem wellPlaced_trailing (trailing : Option Gap) {mark : Punctuation} (hmark : mark.closes = true)
    {rest : List Lexeme} (h : WellPlaced rest) :
    WellPlaced (trailingLexemes trailing ++ .punctuation mark :: rest) := by
  have hclose : WellPlaced (.punctuation mark :: rest) := h
  cases trailing with
  | none => exact hclose
  | some gap => exact ⟨⟨.punctuation mark, nextToken_gap gap _, hmark⟩, (wellPlaced_gap gap _).mpr hclose⟩

mutual

/-- The commas of a value have their places. -/
theorem Tree.wellPlaced : ∀ (tree : Tree) {rest : List Lexeme}, WellPlaced rest → WellPlaced (tree.lexemes ++ rest)
  | .scalar _, _, h => h
  | .string _, _, h => h
  | .emptyArray gap, rest, h => by
      rw [Tree.lexemes, List.cons_append, List.append_assoc]
      exact (wellPlaced_gap gap _).mpr h
  | .array items, rest, h => by
      rw [Tree.lexemes, List.cons_append, List.append_assoc]
      exact items.wellPlaced rfl h
  | .emptyObject gap, rest, h => by
      rw [Tree.lexemes, List.cons_append, List.append_assoc]
      exact (wellPlaced_gap gap _).mpr h
  | .object members, rest, h => by
      rw [Tree.lexemes, List.cons_append, List.append_assoc]
      exact members.wellPlaced rfl h

/-- The commas between items have their places. -/
theorem Items.wellPlaced : ∀ (items : Items) {mark : Punctuation} {rest : List Lexeme}, mark.closes = true →
    WellPlaced rest → WellPlaced (items.lexemes ++ .punctuation mark :: rest)
  | .last before value after trailing, mark, rest, hmark, h => by
      rw [Items.lexemes]
      simp only [List.append_assoc]
      apply (wellPlaced_gap before _).mpr
      apply value.wellPlaced
      apply (wellPlaced_gap after _).mpr
      exact wellPlaced_trailing trailing hmark h
  | .cons before value after items, mark, rest, hmark, h => by
      rw [Items.lexemes]
      simp only [List.append_assoc]
      apply (wellPlaced_gap before _).mpr
      apply value.wellPlaced
      apply (wellPlaced_gap after _).mpr
      exact ⟨items.nextToken _, items.wellPlaced hmark h⟩

/-- The commas between members have their places. -/
theorem Members.wellPlaced : ∀ (members : Members) {mark : Punctuation} {rest : List Lexeme},
    mark.closes = true → WellPlaced rest → WellPlaced (members.lexemes ++ .punctuation mark :: rest)
  | .last before key beforeColon afterColon value after trailing, mark, rest, hmark, h => by
      rw [Members.lexemes]
      simp only [List.append_assoc, List.cons_append]
      apply (wellPlaced_gap before _).mpr
      apply (wellPlaced_gap beforeColon _).mpr
      apply (wellPlaced_gap afterColon _).mpr
      apply value.wellPlaced
      apply (wellPlaced_gap after _).mpr
      exact wellPlaced_trailing trailing hmark h
  | .cons before key beforeColon afterColon value after members, mark, rest, hmark, h => by
      rw [Members.lexemes]
      simp only [List.append_assoc, List.cons_append]
      apply (wellPlaced_gap before _).mpr
      apply (wellPlaced_gap beforeColon _).mpr
      apply (wellPlaced_gap afterColon _).mpr
      apply value.wellPlaced
      apply (wellPlaced_gap after _).mpr
      exact ⟨members.nextToken _, members.wellPlaced hmark h⟩

end

/-- Filler holds no comma. -/
theorem wellPlaced_filler (pieces : List Filler) (rest : List Lexeme) :
    WellPlaced (pieces.map Filler.lexeme ++ rest) ↔ WellPlaced rest := by
  induction pieces with
  | nil => exact Iff.rfl
  | cons piece pieces ih =>
      cases piece with
      | space => exact ih
      | tab => exact ih
      | block comment => exact ih

theorem wellPlaced_lineEnd (comment : Option LineText) (rest : List Lexeme) :
    WellPlaced (lineEnd comment :: rest) ↔ WellPlaced rest := by
  cases comment with
  | none => exact Iff.rfl
  | some comment => exact Iff.rfl

/-- The commas of a document have their places. -/
theorem wellPlaced_doc (doc : List DocLine) : WellPlaced (docLexemes doc) := by
  induction doc with
  | nil => exact trivial
  | cons line doc ih =>
      rw [docLexemes, List.flatMap_cons]
      cases line with
      | filler pieces comment =>
          rw [DocLine.lexemes, List.append_assoc]
          apply (wellPlaced_filler pieces _).mpr
          exact (wellPlaced_lineEnd comment _).mpr ih
      | record line =>
          rw [DocLine.lexemes, RecordLine.lexemes]
          simp only [List.append_assoc]
          apply (wellPlaced_gap line.before _).mpr
          apply line.value.wellPlaced
          apply (wellPlaced_gap line.after _).mpr
          exact (wellPlaced_lineEnd line.comment _).mpr ih

/-- What both scanners leave of a document. -/
theorem cleaned_doc (doc : List DocLine) :
    stripTrailingCommas (stripComments (docText doc)) = (docLexemes doc).flatMap Lexeme.plain := by
  rw [docText, stripComments_lexemes]
  exact stripTrailingCommas_lexemes (wellPlaced_doc doc)

/-! ### Lines -/

/-- A record holds no line break as it is. JSON itself allows the three of Unicode in its strings. -/
def RecordLine.Unbroken (line : RecordLine) : Prop :=
  ∀ lexeme ∈ line.lexemes, ∀ c ∈ lexeme.rawChars, c.toNat ∉ [0x85, 0x2028, 0x2029]

/-- A character that is no space ends no line. -/
theorem isLineBreak_of_not_isStrSpace {c : Char} (h : isStrSpace c = false) : isLineBreak c = false := by
  apply Bool.eq_false_of_not_eq_true
  intro hbreak
  rw [isStrSpace_of_isLineBreak hbreak] at h
  cases h

/-- A hexadecimal digit may stand in a number or a name. -/
theorem isScalarChar_of_hexValue {c : Char} (h : (hexValue? c).isSome = true) : isScalarChar c = true := by
  simp only [isScalarChar, isAlphanum_eq, Bool.or_eq_true, Bool.and_eq_true, decide_eq_true_eq, ge_iff_le]
  rw [hexValue?] at h
  split at h
  · rename_i hdigit
    exact .inl (.inl (.inl (.inr hdigit)))
  · split at h
    · rename_i hlower
      exact .inl (.inl (.inl (.inl (.inr ⟨hlower.1, UInt32.le_trans hlower.2 (by decide)⟩))))
    · split at h
      · rename_i hupper
        exact .inl (.inl (.inl (.inl (.inl ⟨hupper.1, UInt32.le_trans hupper.2 (by decide)⟩))))
      · cases h

/-- A character of a literal ends no line when it is none of the three as it is. -/
theorem isLineBreak_stringChar {char : StringChar}
    (hraw : ∀ c raw, char = .plain c raw → c.toNat ∉ [0x85, 0x2028, 0x2029]) :
    ∀ c ∈ char.text, isLineBreak c = false := by
  cases char with
  | plain c raw =>
      intro d hd
      rw [List.mem_singleton.mp hd]
      have hc := hraw c raw rfl
      have hlow := raw.2.2
      simp only [List.mem_cons, List.not_mem_nil, or_false, not_or] at hc
      simp only [isLineBreak, List.mem_cons, List.not_mem_nil, or_false, decide_eq_false_iff_not]
      omega
  | escape c known =>
      have all : ∀ d ∈ simpleEscapes, isLineBreak d = false := forall_mem_of_all (by decide)
      intro d hd
      rcases List.mem_cons.mp hd with rfl | hd
      · decide
      · rw [List.mem_singleton.mp hd]
        exact all c known
  | unicode digits four hex =>
      intro d hd
      rcases List.mem_cons.mp hd with rfl | hd
      · decide
      · rcases List.mem_cons.mp hd with rfl | hd
        · decide
        · exact isLineBreak_of_not_isStrSpace
            (isStrSpace_of_isScalarChar (isScalarChar_of_hexValue (hex d hd)))

/-- A part that stays on its line. -/
def Lexeme.OneLine : Lexeme → Prop
  | newline | lineComment _ => False
  | block comment => '\n' ∉ comment.content
  | _ => True

/-- Such a part ends no line when no literal holds one of the three characters as it is. -/
theorem isLineBreak_plain {lexeme : Lexeme} (hone : lexeme.OneLine)
    (hraw : ∀ c ∈ lexeme.rawChars, c.toNat ∉ [0x85, 0x2028, 0x2029]) :
    ∀ c ∈ lexeme.plain, isLineBreak c = false := by
  cases lexeme with
  | newline => cases hone
  | lineComment comment => cases hone
  | space => exact forall_mem_of_all (by decide)
  | tab => exact forall_mem_of_all (by decide)
  | comma => exact forall_mem_of_all (by decide)
  | trailingComma => exact forall_mem_of_all (by decide)
  | punctuation mark =>
      apply forall_mem_of_all
      cases mark <;> decide
  | block comment =>
      intro c hc
      obtain ⟨hmem, hnewline⟩ := List.mem_filter.mp hc
      rw [decide_eq_true_eq] at hnewline
      exact absurd (hnewline ▸ hmem) hone
  | scalar token =>
      intro c hc
      exact isLineBreak_of_not_isStrSpace (isStrSpace_of_isScalarChar (token.plain c hc))
  | string chars =>
      have hquote : isLineBreak doubleQuote = false := by decide
      intro c hc
      rcases List.mem_append.mp hc with hc | hc
      · rcases List.mem_cons.mp hc with rfl | hc
        · exact hquote
        · obtain ⟨char, hchar, hc⟩ := List.mem_flatMap.mp hc
          refine isLineBreak_stringChar ?_ c hc
          rintro d raw rfl
          exact hraw d (List.mem_filterMap.mpr ⟨_, hchar, rfl⟩)
      · rw [List.mem_singleton.mp hc]
        exact hquote

theorem Gap.oneLine (gap : Gap) : ∀ lexeme ∈ gap.lexemes, lexeme.OneLine := by
  intro lexeme hlexeme
  obtain ⟨spacing, _, rfl⟩ := List.mem_map.mp hlexeme
  cases spacing with
  | space => exact trivial
  | tab => exact trivial
  | block comment oneLine => exact oneLine

theorem oneLine_trailing (trailing : Option Gap) : ∀ lexeme ∈ trailingLexemes trailing, lexeme.OneLine := by
  cases trailing with
  | none => exact fun _ h => nomatch h
  | some gap => exact List.forall_mem_cons.mpr ⟨trivial, gap.oneLine⟩

mutual

/-- A value stays on its line. -/
theorem Tree.oneLine : ∀ (tree : Tree), ∀ lexeme ∈ tree.lexemes, lexeme.OneLine
  | .scalar _ => List.forall_mem_singleton.mpr trivial
  | .string _ => List.forall_mem_singleton.mpr trivial
  | .emptyArray gap => by
      simp only [Tree.lexemes, List.forall_mem_cons, List.forall_mem_append]
      exact ⟨trivial, gap.oneLine, trivial, List.forall_mem_nil _⟩
  | .array items => by
      simp only [Tree.lexemes, List.forall_mem_cons, List.forall_mem_append]
      exact ⟨trivial, items.oneLine, trivial, List.forall_mem_nil _⟩
  | .emptyObject gap => by
      simp only [Tree.lexemes, List.forall_mem_cons, List.forall_mem_append]
      exact ⟨trivial, gap.oneLine, trivial, List.forall_mem_nil _⟩
  | .object members => by
      simp only [Tree.lexemes, List.forall_mem_cons, List.forall_mem_append]
      exact ⟨trivial, members.oneLine, trivial, List.forall_mem_nil _⟩

theorem Items.oneLine : ∀ (items : Items), ∀ lexeme ∈ items.lexemes, lexeme.OneLine
  | .last before value after trailing => by
      simp only [Items.lexemes, List.forall_mem_append]
      exact ⟨⟨⟨before.oneLine, value.oneLine⟩, after.oneLine⟩, oneLine_trailing trailing⟩
  | .cons before value after items => by
      simp only [Items.lexemes, List.forall_mem_append, List.forall_mem_cons]
      exact ⟨⟨⟨before.oneLine, value.oneLine⟩, after.oneLine⟩, trivial, items.oneLine⟩

theorem Members.oneLine : ∀ (members : Members), ∀ lexeme ∈ members.lexemes, lexeme.OneLine
  | .last before _ beforeColon afterColon value after trailing => by
      simp only [Members.lexemes, List.forall_mem_append, List.forall_mem_cons]
      exact ⟨before.oneLine, trivial, beforeColon.oneLine, trivial,
        ⟨⟨afterColon.oneLine, value.oneLine⟩, after.oneLine⟩, oneLine_trailing trailing⟩
  | .cons before _ beforeColon afterColon value after members => by
      simp only [Members.lexemes, List.forall_mem_append, List.forall_mem_cons]
      exact ⟨before.oneLine, trivial, beforeColon.oneLine, trivial,
        ⟨⟨afterColon.oneLine, value.oneLine⟩, after.oneLine⟩, trivial, members.oneLine⟩

end

namespace RecordLine

variable {line : RecordLine}

/-- The JSON of a record is one line. -/
theorem isLineBreak_json (h : line.Unbroken) : ∀ c ∈ line.json, isLineBreak c = false := by
  have hone : ∀ lexeme ∈ line.lexemes, lexeme.OneLine := by
    simp only [lexemes, List.forall_mem_append]
    exact ⟨⟨line.before.oneLine, line.value.oneLine⟩, line.after.oneLine⟩
  intro c hc
  obtain ⟨lexeme, hlexeme, hc⟩ := List.mem_flatMap.mp hc
  exact isLineBreak_plain (hone lexeme hlexeme) (h lexeme hlexeme) c hc

/-- It is not blank. -/
theorem strip_json (line : RecordLine) : strip line.json ≠ [] := by
  intro hblank
  obtain ⟨token, more, hlexemes, _, _, c, hc, hspace⟩ := line.value.exists_first
  have hmem : c ∈ line.json := by
    refine List.mem_flatMap.mpr ⟨token, ?_, hc⟩
    rw [lexemes, hlexemes]
    simp
  rw [all_isStrSpace hblank c hmem] at hspace
  cases hspace

/-- Its line is the only one that is filled. -/
theorem filledLines_json (h : line.Unbroken) : filledLines (splitlines line.json) = [line.json] := by
  have hne : line.json ≠ [] := by
    intro hnil
    have hfilled := line.strip_json
    rw [hnil] at hfilled
    exact hfilled rfl
  rw [splitlines_unbroken (isLineBreak_json h) hne, filledLines,
    List.filter_cons_of_pos (by simp [line.strip_json])]
  rfl

end RecordLine

/-- Filler leaves no filled line. -/
theorem filledLines_filler (pieces : List Filler) :
    filledLines (splitlines ((pieces.map Filler.lexeme).flatMap Lexeme.plain)) = [] := by
  rw [filledLines, List.filter_eq_nil_iff]
  intro line hline
  have hspaces : ∀ c ∈ line, isStrSpace c = true := by
    intro c hc
    obtain ⟨lexeme, hlexeme, hc⟩ := List.mem_flatMap.mp (mem_of_mem_splitlines hline hc)
    obtain ⟨piece, _, rfl⟩ := List.mem_map.mp hlexeme
    cases piece with
    | space =>
        rw [List.mem_singleton.mp hc]
        decide
    | tab =>
        rw [List.mem_singleton.mp hc]
        decide
    | block comment =>
        have hnewline := (List.mem_filter.mp hc).2
        rw [decide_eq_true_eq] at hnewline
        rw [hnewline]
        decide
  simp [strip_spaces hspaces]

theorem plain_lineEnd (comment : Option LineText) : (lineEnd comment).plain = ['\n'] := by
  cases comment with
  | none => rfl
  | some comment => rfl

/-- The filled lines of a cleaned document are its records as JSON. -/
theorem filledLines_doc {doc : List DocLine} (h : ∀ line ∈ docRecords doc, line.Unbroken) :
    filledLines (splitlines ((docLexemes doc).flatMap Lexeme.plain)) = (docRecords doc).map RecordLine.json := by
  induction doc with
  | nil => rfl
  | cons docLine doc ih =>
      have hline : ∀ (lexemes : List Lexeme) (comment : Option LineText),
          filledLines (splitlines ((lexemes ++ [lineEnd comment] ++ docLexemes doc).flatMap Lexeme.plain)) =
            filledLines (splitlines (lexemes.flatMap Lexeme.plain)) ++
              filledLines (splitlines ((docLexemes doc).flatMap Lexeme.plain)) := by
        intro lexemes comment
        rw [List.append_assoc, List.flatMap_append, List.singleton_append, List.flatMap_cons, plain_lineEnd]
        exact filledLines_break _ _ (by decide)
      rw [docLexemes, List.flatMap_cons]
      cases docLine with
      | filler pieces comment =>
          have hrest := ih h
          refine (hline (pieces.map Filler.lexeme) comment).trans ?_
          rw [filledLines_filler, hrest]
          rfl
      | record line =>
          have hfirst : line.Unbroken := h line List.mem_cons_self
          have hrest := ih fun other hother => h other (List.mem_cons_of_mem line hother)
          refine (hline line.lexemes line.comment).trans ?_
          have hjson := RecordLine.filledLines_json hfirst
          rw [RecordLine.json] at hjson
          rw [hjson, hrest]
          rfl

/-- The lines that `json.loads` gets are the records of the document as JSON. -/
theorem recordLines_doc {doc : List DocLine} (h : ∀ line ∈ docRecords doc, line.Unbroken) :
    recordLines (docText doc) = (docRecords doc).map RecordLine.json := by
  rw [recordLines, cleaned_doc, filledLines_doc h]

/-! ### A break inside a literal -/

/-- A part starts and ends outside of literals. -/
theorem quotingAfter_plain (lexeme : Lexeme) : quotingAfter .outside lexeme.plain = .outside := by
  cases lexeme with
  | space => decide
  | tab => decide
  | newline => decide
  | comma => decide
  | trailingComma => decide
  | lineComment comment => rfl
  | punctuation mark => cases mark <;> decide
  | block comment =>
      apply quotingAfter_outside
      intro hquote
      have hnewline := (List.mem_filter.mp hquote).2
      exact absurd (of_decide_eq_true hnewline) (by decide)
  | scalar token =>
      apply quotingAfter_outside
      intro hquote
      exact absurd (token.plain _ hquote) (by decide)
  | string chars =>
      have hbody : quotingAfter .outside (doubleQuote :: chars.flatMap StringChar.text) = .inside false :=
        quotingAfter_stringChars chars
      have hliteral : Lexeme.plain (.string chars) =
          doubleQuote :: chars.flatMap StringChar.text ++ [doubleQuote] := rfl
      rw [hliteral, quotingAfter_append, hbody]
      rfl

theorem quotingAfter_lexemes (lexemes : List Lexeme) :
    quotingAfter .outside (lexemes.flatMap Lexeme.plain) = .outside := by
  induction lexemes with
  | nil => rfl
  | cons lexeme lexemes ih => rw [List.flatMap_cons, quotingAfter_append, quotingAfter_plain, ih]

/-- The parts of a record are parts of the document. -/
theorem mem_docLexemes {doc : List DocLine} {line : RecordLine} (hline : line ∈ docRecords doc) {lexeme : Lexeme}
    (hlexeme : lexeme ∈ line.lexemes) : lexeme ∈ docLexemes doc := by
  obtain ⟨docLine, hmem, hrecord⟩ := List.mem_filterMap.mp hline
  cases docLine with
  | filler pieces comment => cases hrecord
  | record other =>
      cases hrecord
      exact List.mem_flatMap.mpr ⟨_, hmem, List.mem_append_left _ hlexeme⟩

/-- A character of a literal that stands for itself stands inside the literal. -/
theorem exists_break_inside {lexemes : List Lexeme} {lexeme : Lexeme} (hlexeme : lexeme ∈ lexemes) {c : Char}
    (hc : c ∈ lexeme.rawChars) : ∃ before after, lexemes.flatMap Lexeme.plain = before ++ c :: after ∧
      quotingAfter .outside before = .inside false := by
  obtain ⟨earlier, later, rfl⟩ := List.append_of_mem hlexeme
  cases lexeme with
  | string chars =>
      obtain ⟨char, hchar, hraw⟩ := List.mem_filterMap.mp hc
      obtain ⟨first, second, rfl⟩ := List.append_of_mem hchar
      cases char with
      | plain d raw =>
          cases hraw
          refine ⟨earlier.flatMap Lexeme.plain ++ doubleQuote :: first.flatMap StringChar.text,
            second.flatMap StringChar.text ++ doubleQuote :: later.flatMap Lexeme.plain, ?_, ?_⟩
          · simp [Lexeme.plain, Lexeme.uncommented, Lexeme.text, Lexeme.literal, StringChar.text]
          · rw [quotingAfter_append, quotingAfter_lexemes]
            exact quotingAfter_stringChars first
      | escape d known => cases hraw
      | unicode digits four hex => cases hraw
  | space => cases hc
  | tab => cases hc
  | newline => cases hc
  | block comment => cases hc
  | lineComment comment => cases hc
  | punctuation mark => cases hc
  | comma => cases hc
  | trailingComma => cases hc
  | scalar token => cases hc

section Renderings

variable {κ ν : Type} [DecidableEq κ] {loads : List Char → Except Exn (Loaded κ ν)}

/-- In a document that is accepted no literal holds one of the three characters as it is. -/
theorem unbroken_of_accepted (hloads : JsonLoads loads) {doc : List DocLine} {result : OrderedDict κ ν}
    (h : parseJsonx loads (docText doc) = .ok result) : ∀ line ∈ docRecords doc, line.Unbroken := by
  obtain ⟨records, hrecords, _⟩ := parseJsonx_ok_iff.mp h
  intro line hline lexeme hlexeme c hc hbreak
  obtain ⟨before, after, hsplit, hinside⟩ := exists_break_inside (mem_docLexemes hline hlexeme) hc
  have hisBreak : isLineBreak c = true := by
    simp only [List.mem_cons, List.not_mem_nil, or_false] at hbreak
    simp only [isLineBreak, List.mem_cons, List.not_mem_nil, or_false, decide_eq_true_eq]
    omega
  rw [recordLines] at hrecords
  have houtside := (quoting_of_read hloads hrecords).2 before c after ((cleaned_doc doc).trans hsplit) hisBreak
  rw [hinside] at houtside
  cases houtside

/-- A document whose values `json.loads` reads as records, each without its comments and trailing commas,
is parsed to the merge of the records, in their order and with later keys winning, exactly when no string
literal of a record holds U+0085, U+2028 or U+2029 as it is. -/
theorem config_renderings_iff (hloads : JsonLoads loads) (doc : List DocLine)
    (records : List (OrderedDict κ ν))
    (hrecords : ReadsRecords loads ((docRecords doc).map RecordLine.json) records) :
    parseJsonx loads (docText doc) = .ok (mergeRecords .empty records) ↔
      ∀ line ∈ docRecords doc, line.Unbroken := by
  constructor
  · exact unbroken_of_accepted hloads
  · intro hunbroken
    apply parseJsonx_ok_iff.mpr
    refine ⟨records, ?_, rfl⟩
    rw [recordLines_doc hunbroken]
    exact hrecords

end Renderings

/-- A line with the record that sets `k` to the literal; a comma and a comment stand behind it. -/
def recordOf (chars : List StringChar) : RecordLine where
  before := []
  value := .object (.last [] [.plain 'k' (by decide)] [] [.space] (.string chars) []
    (some [.block ⟨['x'], by decide⟩ (by decide)]))
  after := []
  comment := some ⟨false, ['e'], by decide⟩

/-- The literal `"//"`. -/
def slashes : List StringChar := [.plain '/' (by decide), .plain '/' (by decide)]

/-- A comment over two lines, and a record. -/
def commentedDoc : List DocLine :=
  [.filler [.block ⟨['a', '\n', 'b'], by decide⟩] (some ⟨true, ['c'], by decide⟩), .record (recordOf slashes)]

/-- The document is read through its comments and its comma. -/
theorem config_renderings_commented :
    docText commentedDoc = "/*a\nb*///c\n\x7b\"k\": \"//\",/*x*/\x7d#e\n".toList ∧
      parseJsonx (loadsTable [("\x7b\"k\": \"//\"\x7d".toList, OrderedDict.empty.set "k" "//")] "")
        (docText commentedDoc) = .ok (mergeRecords .empty [OrderedDict.empty.set "k" "//"]) := by
  refine ⟨by decide, ?_⟩
  refine (config_renderings_iff (jsonLoads_loadsTable _ (by decide)) commentedDoc _ (.cons rfl .nil)).mpr ?_
  intro line hline
  obtain rfl : line = recordOf slashes := List.mem_singleton.mp hline
  have hplain : ∀ lexeme ∈ (recordOf slashes).lexemes,
      (lexeme.rawChars.all fun c => decide (c.toNat ∉ [0x85, 0x2028, 0x2029])) = true :=
    forall_mem_of_all (by decide)
  intro lexeme hlexeme
  exact forall_mem_of_all (hplain lexeme hlexeme)

/-- The literal of a line separator. -/
def lineSeparator : List StringChar := [.plain (Char.ofNat 0x2028) (by decide)]

/-- A record with a line separator in a string is JSON, and `parse_jsonx` refuses it. -/
theorem line_separator_refused :
    ReadsRecords (loadsTable [((recordOf lineSeparator).json, OrderedDict.empty.set "k" "\u2028")]
        "Unterminated string starting at: line 1 column 7 (char 6)")
      ((docRecords [.record (recordOf lineSeparator)]).map RecordLine.json) [OrderedDict.empty.set "k" "\u2028"] ∧
    parseJsonx (loadsTable [((recordOf lineSeparator).json, OrderedDict.empty.set "k" "\u2028")]
        "Unterminated string starting at: line 1 column 7 (char 6)")
      (docText [.record (recordOf lineSeparator)]) =
        .error (.valueError "config line 1: invalid JSON (Unterminated string starting at: line 1 column 7 (char 6))") := by
  exact ⟨.cons rfl .nil, rfl⟩

end Priestly
