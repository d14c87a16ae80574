/-
Module: Priestly.Proofs.Scanners
Layer: Proofs
Purpose: How the two scanners of `parse_jsonx` and the split into lines act on a text that is cut at a line
  feed, and what an accepted text says about them: it is outside of string literals at every line break
  and at its end.
Imports: Mathlib list lemmas, Priestly.Config.Jsonx
Trusted boundary: none
Main exports: quotingAfter, modeAfter, stripComments_append, stripTrailingCommas_append,
  splitlines_break, recordLines, JsonLoads, parseJsonx_ok_iff, quoting_of_accepted
-/
import Mathlib.Data.List.TakeWhile
import Priestly.Config.Jsonx

namespace Priestly

/-! ### String literals -/

/-- The quoting behind a text. -/
def quotingAfter (quoting : Quoting) (text : List Char) : Quoting := text.foldl Quoting.after quoting

theorem quotingAfter_cons (quoting : Quoting) (c : Char) (rest : List Char) :
    quotingAfter quoting (c :: rest) = quotingAfter (quoting.after c) rest := rfl

theorem quotingAfter_append (quoting : Quoting) (first second : List Char) :
    quotingAfter quoting (first ++ second) = quotingAfter (quotingAfter quoting first) second :=
  List.foldl_append

/-- Outside of a literal only a quote matters. -/
theorem Quoting.outside_after {c : Char} (h : c ≠ doubleQuote) : Quoting.outside.after c = .outside := by
  rw [after, if_neg h]

theorem quotingAfter_outside {text : List Char} (h : doubleQuote ∉ text) :
    quotingAfter .outside text = .outside := by
  induction text with
  | nil => rfl
  | cons c rest ih =>
      rw [List.mem_cons, not_or] at h
      rw [quotingAfter_cons, Quoting.outside_after (Ne.symm h.1)]
      exact ih h.2

/-! ### Comments -/

namespace ScanMode

/-- Where the scanner stands behind a text. -/
def quoting : ScanMode → Quoting
  | text quoting => quoting
  | lineComment | blockOpening | blockComment | blockClosing => .outside

/-- A character that is kept changes the quoting, and one that is not does not. -/
theorem quoting_next (mode : ScanMode) (c : Char) (ahead : Option Char) :
    (mode.next c ahead).quoting = if mode.keeps c ahead then mode.quoting.after c else mode.quoting := by
  cases mode with
  | text quoting =>
      cases quoting with
      | outside =>
          rw [next, keeps]
          by_cases hline : opensLine c ahead = true
          · simp [hline, ScanMode.quoting]
          · by_cases hblock : opensBlock c ahead = true
            · simp [hline, hblock, ScanMode.quoting]
            · simp [hline, hblock, ScanMode.quoting]
      | inside escaped => rfl
  | lineComment =>
      by_cases hc : c = '\n'
      · rw [hc]
        rfl
      · simp [next, keeps, hc, ScanMode.quoting]
  | blockOpening => rfl
  | blockComment =>
      have hquoting : (blockComment.next c ahead).quoting = .outside := by
        rw [next]
        split
        · rfl
        · rfl
      rw [hquoting]
      by_cases hc : c = '\n'
      · rw [hc]
        split
        · rfl
        · rfl
      · simp [keeps, hc, ScanMode.quoting]
  | blockClosing => rfl

/-- A line feed ahead is like the end of the text, since it starts and ends no comment. -/
theorem next_newline (mode : ScanMode) (c : Char) : mode.next c (some '\n') = mode.next c none := by
  cases mode with
  | text quoting =>
      cases quoting with
      | outside => simp [next, opensLine, opensBlock]
      | inside escaped => rfl
  | lineComment => rfl
  | blockOpening => rfl
  | blockComment => simp [next]
  | blockClosing => rfl

/-- Only a line feed in a block comment is kept for what stands behind it. -/
theorem keeps_newline (mode : ScanMode) (c : Char) : mode.keeps c (some '\n') = mode.keeps c none ∨
    (mode = blockComment ∧ c = '\n' ∧ mode.keeps c none = false) := by
  cases mode with
  | text quoting =>
      left
      cases quoting with
      | outside => simp [keeps, opensLine, opensBlock]
      | inside escaped => rfl
  | lineComment => exact .inl rfl
  | blockOpening => exact .inl rfl
  | blockComment =>
      by_cases hc : c = '\n'
      · exact .inr ⟨rfl, hc, by simp [keeps]⟩
      · exact .inl (by simp [keeps, hc])
  | blockClosing => exact .inl rfl

end ScanMode

/-- Where the scanner of `_strip_comments` stands behind a text. -/
def modeAfter (mode : ScanMode) : List Char → ScanMode
  | [] => mode
  | c :: rest => modeAfter (mode.next c rest.head?) rest

/-- The quoting of what is kept. -/
theorem quotingAfter_stripComments (mode : ScanMode) (text : List Char) :
    quotingAfter mode.quoting (stripCommentsFrom mode text) = (modeAfter mode text).quoting := by
  induction text generalizing mode with
  | nil => rfl
  | cons c rest ih =>
      have hnext := mode.quoting_next c rest.head?
      rw [stripCommentsFrom, modeAfter, ← ih]
      by_cases hkeeps : mode.keeps c rest.head? = true
      · rw [if_pos hkeeps] at hnext ⊢
        rw [quotingAfter_cons, hnext]
      · rw [if_neg hkeeps] at hnext ⊢
        rw [hnext]

/-- Behind a text the scanner never stands between the two characters of a comment sign. -/
theorem modeAfter_whole (mode : ScanMode) (text : List Char)
    (h : mode = .blockOpening ∨ mode = .blockClosing → text ≠ []) :
    modeAfter mode text ≠ .blockOpening ∧ modeAfter mode text ≠ .blockClosing := by
  induction text generalizing mode with
  | nil => exact ⟨fun hmode => h (.inl hmode) rfl, fun hmode => h (.inr hmode) rfl⟩
  | cons c rest ih =>
      apply ih
      rintro hmode rfl
      cases mode with
      | text quoting =>
          cases quoting with
          | outside =>
              rw [ScanMode.next] at hmode
              split at hmode
              · simp at hmode
              · simp [ScanMode.opensBlock] at hmode
          | inside escaped => simp [ScanMode.next] at hmode
      | lineComment =>
          rw [ScanMode.next] at hmode
          split at hmode
          · simp at hmode
          · simp at hmode
      | blockOpening => simp [ScanMode.next] at hmode
      | blockComment => simp [ScanMode.next] at hmode
      | blockClosing => simp [ScanMode.next] at hmode

/-- A text and a line feed behind it: what stands behind does not change what is kept of the text, unless
the text ends in a block comment. -/
theorem stripCommentsFrom_append {mode : ScanMode} {first : List Char} (second : List Char)
    (h : modeAfter mode first ≠ .blockComment) :
    stripCommentsFrom mode (first ++ '\n' :: second) =
      stripCommentsFrom mode first ++ stripCommentsFrom (modeAfter mode first) ('\n' :: second) := by
  induction first generalizing mode with
  | nil => rfl
  | cons c rest ih =>
      rw [modeAfter] at h
      have hahead : mode.next c (rest ++ '\n' :: second).head? = mode.next c rest.head? ∧
          mode.keeps c (rest ++ '\n' :: second).head? = mode.keeps c rest.head? := by
        cases rest with
        | nil =>
            refine ⟨mode.next_newline c, (mode.keeps_newline c).resolve_right ?_⟩
            rintro ⟨rfl, _, _⟩
            simp [modeAfter, ScanMode.next] at h
        | cons d rest => exact ⟨rfl, rfl⟩
      rw [List.cons_append, stripCommentsFrom, stripCommentsFrom, modeAfter, hahead.1, hahead.2, ih h]
      split
      · rfl
      · rfl

/-- Outside of literals and block comments a line feed is kept, and the scan starts anew behind it. -/
theorem stripComments_append {first : List Char} (second : List Char)
    (hquoting : (modeAfter (.text .outside) first).quoting = .outside)
    (hblock : modeAfter (.text .outside) first ≠ .blockComment) :
    stripComments (first ++ '\n' :: second) = stripComments first ++ '\n' :: stripComments second := by
  have hwhole := modeAfter_whole (.text .outside) first (by simp)
  rw [stripComments, stripCommentsFrom_append second hblock]
  have hnewline : stripCommentsFrom (modeAfter (.text .outside) first) ('\n' :: second) =
      '\n' :: stripComments second := by
    cases hmode : modeAfter (.text .outside) first with
    | text quoting =>
        rw [hmode] at hquoting
        have hquoting : quoting = .outside := hquoting
        rw [hquoting]
        rfl
    | lineComment => rfl
    | blockOpening => exact absurd hmode hwhole.1
    | blockComment => exact absurd hmode hblock
    | blockClosing => exact absurd hmode hwhole.2
  rw [hnewline]
  rfl

/-- In a block comment a text without slash leaves only line feeds. -/
theorem stripCommentsFrom_block {text : List Char} (h : '/' ∉ text) :
    ∃ k, stripCommentsFrom .blockComment text = List.replicate k '\n' := by
  induction text with
  | nil => exact ⟨0, rfl⟩
  | cons c rest ih =>
      rw [List.mem_cons, not_or] at h
      obtain ⟨k, hk⟩ := ih h.2
      have hnext : ScanMode.blockComment.next c rest.head? = .blockComment := by
        rw [ScanMode.next, if_neg]
        rintro ⟨_, hahead⟩
        exact h.2 (List.mem_of_mem_head? hahead)
      rw [stripCommentsFrom, hnext, hk]
      by_cases hkeeps : ScanMode.blockComment.keeps c rest.head? = true
      · rw [if_pos hkeeps]
        have hc : c = '\n' := by
          simp only [ScanMode.keeps, Bool.and_eq_true, decide_eq_true_eq] at hkeeps
          exact hkeeps.1
        exact ⟨k + 1, by rw [hc]; rfl⟩
      · rw [if_neg hkeeps]
        exact ⟨k, rfl⟩

/-- Behind a text that ends in a block comment, a text without slash leaves only line feeds. -/
theorem stripComments_unclosed {first second : List Char} {mode : ScanMode}
    (hblock : modeAfter mode first = .blockComment) (hslash : '/' ∉ second) :
    ∃ k, stripCommentsFrom mode (first ++ '\n' :: second) =
      stripCommentsFrom mode first ++ List.replicate k '\n' := by
  have hbehind : '/' ∉ '\n' :: second := by
    rw [List.mem_cons, not_or]
    exact ⟨by decide, hslash⟩
  induction first generalizing mode with
  | nil =>
      have hmode : mode = .blockComment := hblock
      rw [hmode]
      exact stripCommentsFrom_block hbehind
  | cons c rest ih =>
      rw [modeAfter] at hblock
      obtain ⟨k, hk⟩ := ih hblock
      cases rest with
      | nil =>
          have hnext : mode.next c (some '\n') = .blockComment := mode.next_newline c ▸ hblock
          obtain ⟨j, hj⟩ := stripCommentsFrom_block hbehind
          have hwhole : stripCommentsFrom mode ([c] ++ '\n' :: second) =
              if mode.keeps c (some '\n') then c :: List.replicate j '\n' else List.replicate j '\n' := by
            rw [List.singleton_append, stripCommentsFrom, List.head?_cons, hnext, hj]
          have halone : stripCommentsFrom mode [c] = if mode.keeps c none then [c] else [] := by
            rw [stripCommentsFrom, stripCommentsFrom]
            rfl
          rw [hwhole, halone]
          rcases mode.keeps_newline c with hkeeps | ⟨_, rfl, hkeeps⟩
          · rw [hkeeps]
            refine ⟨j, ?_⟩
            split
            · rfl
            · rfl
          · rw [hkeeps]
            split
            · exact ⟨j + 1, rfl⟩
            · exact ⟨j, rfl⟩
      | cons d rest =>
          refine ⟨k, ?_⟩
          have hahead : ((d :: rest) ++ '\n' :: second).head? = (d :: rest).head? := rfl
          rw [List.cons_append, stripCommentsFrom, stripCommentsFrom, hahead, hk]
          split
          · rfl
          · rfl

/-! ### Trailing commas -/

/-- Taking out commas outside of literals does not change the quoting. -/
theorem quotingAfter_stripTrailingCommas (quoting : Quoting) (text : List Char) :
    quotingAfter quoting (stripTrailingCommasFrom quoting text) = quotingAfter quoting text := by
  induction text generalizing quoting with
  | nil => rfl
  | cons c rest ih =>
      rw [stripTrailingCommasFrom]
      by_cases hcomma : quoting = .outside ∧ c = ',' ∧ closesNext rest = true
      · rw [if_pos hcomma, ih, hcomma.1, hcomma.2.1]
        rfl
      · rw [if_neg hcomma, quotingAfter_cons, quotingAfter_cons, ih]

/-- The text ends in a comma outside of literals, apart from blanks. -/
def EndsInComma (quoting : Quoting) (text : List Char) : Prop :=
  ∃ before blanks, text = before ++ ',' :: blanks ∧ blanks.all isBlank = true ∧
    quotingAfter quoting before = .outside

/-- Whether a bracket closes behind blanks is not changed by what follows another character. -/
theorem closesNext_append {first : List Char} (second : List Char) (h : ¬ first.all isBlank = true) :
    closesNext (first ++ second) = closesNext first := by
  have hdrop : (first ++ second).dropWhile isBlank = first.dropWhile isBlank ++ second := by
    rw [List.dropWhile_append, if_neg]
    intro hempty
    rw [List.isEmpty_iff, List.dropWhile_eq_nil_iff] at hempty
    exact h (List.all_eq_true.mpr hempty)
  have hne : first.dropWhile isBlank ≠ [] := by
    intro hnil
    rw [List.dropWhile_eq_nil_iff] at hnil
    exact h (List.all_eq_true.mpr hnil)
  rw [closesNext, closesNext, hdrop]
  cases hrest : first.dropWhile isBlank with
  | nil => exact absurd hrest hne
  | cons c rest => rfl

/-- Behind blanks alone no bracket closes. -/
theorem closesNext_blanks {blanks : List Char} (h : blanks.all isBlank = true) :
    closesNext blanks = false := by
  have hnil : blanks.dropWhile isBlank = [] := List.dropWhile_eq_nil_iff.mpr (List.all_eq_true.mp h)
  rw [closesNext, hnil]
  rfl

/-- A text and a line feed behind it: what stands behind does not change which commas of the text are
kept, unless the text ends in a comma. -/
theorem stripTrailingCommasFrom_append {quoting : Quoting} {first : List Char} (second : List Char)
    (hcomma : ¬ EndsInComma quoting first) :
    stripTrailingCommasFrom quoting (first ++ second) =
      stripTrailingCommasFrom quoting first ++ stripTrailingCommasFrom (quotingAfter quoting first) second := by
  induction first generalizing quoting with
  | nil => rfl
  | cons c rest ih =>
      have hrest : ¬ EndsInComma (quoting.after c) rest := by
        rintro ⟨before, blanks, rfl, hblanks, hquoting⟩
        exact hcomma ⟨c :: before, blanks, rfl, hblanks, hquoting⟩
      have hcond : (quoting = .outside ∧ c = ',' ∧ closesNext (rest ++ second) = true) ↔
          (quoting = .outside ∧ c = ',' ∧ closesNext rest = true) := by
        refine and_congr_right fun hquoting => and_congr_right fun hc => ?_
        rw [closesNext_append]
        intro hblanks
        exact hcomma ⟨[], rest, by rw [hc]; rfl, hblanks, hquoting⟩
      rw [List.cons_append, stripTrailingCommasFrom, stripTrailingCommasFrom, quotingAfter_cons, if_congr hcond rfl rfl]
      by_cases htrailing : quoting = .outside ∧ c = ',' ∧ closesNext rest = true
      · have hsame : quoting.after c = quoting := by
          rw [htrailing.1, htrailing.2.1]
          rfl
        rw [hsame] at hrest ⊢
        rw [if_pos htrailing, if_pos htrailing, ih hrest]
      · rw [if_neg htrailing, if_neg htrailing, ih hrest]
        rfl

/-- Blanks hold no comma. -/
theorem stripTrailingCommasFrom_blanks {blanks : List Char} (h : blanks.all isBlank = true) :
    stripTrailingCommasFrom .outside blanks = blanks := by
  induction blanks with
  | nil => rfl
  | cons c rest ih =>
      rw [List.all_cons, Bool.and_eq_true] at h
      have hcomma : c ≠ ',' := by
        rintro rfl
        exact absurd h.1 (by decide)
      have hquote : c ≠ doubleQuote := by
        rintro rfl
        exact absurd h.1 (by decide)
      rw [stripTrailingCommasFrom, if_neg (by simp [hcomma]), Quoting.outside_after hquote, ih h.2]

/-- A comma at the end of a text is kept. -/
theorem stripTrailingCommas_comma {quoting : Quoting} {text : List Char} (h : EndsInComma quoting text) :
    EndsInComma quoting (stripTrailingCommasFrom quoting text) := by
  obtain ⟨before, blanks, rfl, hblanks, hquoting⟩ := h
  induction before generalizing quoting with
  | nil =>
      have hquoting : quoting = .outside := hquoting
      rw [hquoting]
      refine ⟨[], blanks, ?_, hblanks, rfl⟩
      rw [List.nil_append, stripTrailingCommasFrom, if_neg (by simp [closesNext_blanks hblanks])]
      exact congrArg (',' :: ·) (stripTrailingCommasFrom_blanks hblanks)
  | cons c before ih =>
      obtain ⟨before', blanks', hstripped, hblanks', hquoting'⟩ := ih hquoting
      rw [List.cons_append, stripTrailingCommasFrom]
      by_cases htrailing : quoting = .outside ∧ c = ',' ∧ closesNext (before ++ ',' :: blanks) = true
      · have hsame : quoting.after c = quoting := by
          rw [htrailing.1, htrailing.2.1]
          rfl
        rw [if_pos htrailing]
        rw [hsame] at hstripped hquoting'
        exact ⟨before', blanks', hstripped, hblanks', hquoting'⟩
      · rw [if_neg htrailing, hstripped]
        exact ⟨c :: before', blanks', rfl, hblanks', hquoting'⟩

/-! ### Lines -/

/-- A break ends an empty first line. -/
theorem splitlinesFrom_break {c : Char} (rest : List Char) (hc : isLineBreak c = true) :
    splitlinesFrom false (c :: rest) = [] :: splitlinesFrom (c = '\r') rest := by
  rw [splitlinesFrom, if_neg (by simp), if_pos hc]

/-- A line feed is skipped right behind a carriage return only. -/
theorem splitlinesFrom_false {c : Char} (afterReturn : Bool) (rest : List Char) (hc : c ≠ '\n') :
    splitlinesFrom afterReturn (c :: rest) = splitlinesFrom false (c :: rest) := by
  simp [splitlinesFrom, hc]

/-- A text without breaks is one line. -/
theorem splitlines_unbroken {text : List Char} (h : ∀ c ∈ text, isLineBreak c = false) (hne : text ≠ []) :
    splitlines text = [text] := by
  induction text with
  | nil => exact absurd rfl hne
  | cons c rest ih =>
      have hc : ¬ isLineBreak c = true := by
        rw [h c List.mem_cons_self]
        simp
      have hrest : ∀ d ∈ rest, isLineBreak d = false := fun d hd => h d (List.mem_cons_of_mem c hd)
      rw [splitlines, splitlinesFrom, if_neg (by simp), if_neg hc]
      cases rest with
      | nil => rfl
      | cons d rest =>
          have hlines := ih hrest (List.cons_ne_nil d rest)
          rw [splitlines] at hlines
          rw [hlines]

/-- The characters of a line are characters of the text. -/
theorem mem_of_mem_splitlines {afterReturn : Bool} {text line : List Char} {c : Char}
    (hline : line ∈ splitlinesFrom afterReturn text) (hc : c ∈ line) : c ∈ text := by
  induction text generalizing afterReturn line with
  | nil => cases hline
  | cons d rest ih =>
      rw [splitlinesFrom] at hline
      split at hline
      · exact List.mem_cons_of_mem d (ih hline hc)
      · split at hline
        · rcases List.mem_cons.mp hline with rfl | hline
          · cases hc
          · exact List.mem_cons_of_mem d (ih hline hc)
        · cases hlines : splitlinesFrom false rest with
          | nil =>
              rw [hlines, List.mem_singleton] at hline
              rw [hline] at hc
              rw [List.mem_singleton.mp hc]
              exact List.mem_cons_self
          | cons first lines =>
              rw [hlines] at hline
              rcases List.mem_cons.mp hline with rfl | hline
              · rcases List.mem_cons.mp hc with rfl | hc
                · exact List.mem_cons_self
                · exact List.mem_cons_of_mem d (ih (hlines ▸ List.mem_cons_self) hc)
              · exact List.mem_cons_of_mem d (ih (hlines ▸ List.mem_cons_of_mem first hline) hc)

/-- A text has lines unless it is empty. -/
theorem splitlinesFrom_ne_nil (c : Char) (rest : List Char) : splitlinesFrom false (c :: rest) ≠ [] := by
  rw [splitlinesFrom, if_neg (by simp)]
  split
  · simp
  · split
    · simp
    · simp

/-- The lines of a text are lines of what it begins, when a break stands behind it; between them and the
lines behind the break there are at most empty ones. -/
theorem splitlines_break (afterReturn : Bool) (first second : List Char) {c : Char} (hc : isLineBreak c = true) :
    ∃ between afterReturn', (∀ line ∈ between, line = []) ∧
      splitlinesFrom afterReturn (first ++ c :: second) =
        splitlinesFrom afterReturn first ++ between ++ splitlinesFrom afterReturn' second := by
  induction first generalizing afterReturn with
  | nil =>
      by_cases hskip : afterReturn = true ∧ c = '\n'
      · refine ⟨[], false, by simp, ?_⟩
        rw [List.nil_append, splitlinesFrom.eq_2, if_pos hskip]
        rfl
      · refine ⟨[[]], c = '\r', by simp, ?_⟩
        rw [List.nil_append, splitlinesFrom.eq_2, if_neg hskip, if_pos hc]
        rfl
  | cons d rest ih =>
      rw [List.cons_append, splitlinesFrom, splitlinesFrom]
      split
      · exact ih false
      · split
        · obtain ⟨between, afterReturn', hbetween, hlines⟩ := ih (d = '\r')
          exact ⟨between, afterReturn', hbetween, by rw [hlines]; rfl⟩
        · cases rest with
          | nil =>
              refine ⟨[], c = '\r', by simp, ?_⟩
              rw [List.nil_append, splitlinesFrom_break second hc]
              rfl
          | cons e rest =>
              obtain ⟨between, afterReturn', hbetween, hlines⟩ := ih false
              refine ⟨between, afterReturn', hbetween, ?_⟩
              rw [hlines]
              cases hfirst : splitlinesFrom false (e :: rest) with
              | nil => exact absurd hfirst (splitlinesFrom_ne_nil e rest)
              | cons line lines => rfl

/-- A text that ends in characters without breaks has a last line that ends in them. -/
theorem exists_line_of_end (afterReturn : Bool) (before : List Char) {c : Char} {rest : List Char}
    (hc : c ≠ '\n') (hunbroken : ∀ d ∈ c :: rest, isLineBreak d = false) :
    ∃ start, start ++ c :: rest ∈ splitlinesFrom afterReturn (before ++ c :: rest) := by
  induction before generalizing afterReturn with
  | nil =>
      refine ⟨[], ?_⟩
      rw [List.nil_append, splitlinesFrom_false afterReturn rest hc]
      have hone : splitlinesFrom false (c :: rest) = [c :: rest] :=
        splitlines_unbroken hunbroken (List.cons_ne_nil c rest)
      rw [hone]
      exact List.mem_cons_self
  | cons d before ih =>
      rw [List.cons_append, splitlinesFrom]
      split
      · exact ih false
      · split
        · obtain ⟨start, hstart⟩ := ih (d = '\r')
          exact ⟨start, List.mem_cons_of_mem [] hstart⟩
        · obtain ⟨start, hstart⟩ := ih false
          cases hlines : splitlinesFrom false (before ++ c :: rest) with
          | nil =>
              rw [hlines] at hstart
              cases hstart
          | cons line lines =>
              rw [hlines] at hstart
              rcases List.mem_cons.mp hstart with rfl | hstart
              · exact ⟨d :: start, List.mem_cons_self⟩
              · exact ⟨start, List.mem_cons_of_mem _ hstart⟩

/-- A text that ends in a comma and blanks has a line that does. -/
theorem exists_line_of_comma (before : List Char) {blanks : List Char} (h : blanks.all isBlank = true) :
    ∃ start blanks', blanks'.all isBlank = true ∧
      start ++ ',' :: blanks' ∈ splitlines (before ++ ',' :: blanks) := by
  let unbroken := blanks.takeWhile fun c => !isLineBreak c
  have hblanks : unbroken.all isBlank = true := by
    rw [List.all_eq_true] at h ⊢
    exact fun c hc => h c ((List.takeWhile_prefix _).subset hc)
  have hbreaks : ∀ d ∈ ',' :: unbroken, isLineBreak d = false := by
    intro d hd
    rcases List.mem_cons.mp hd with rfl | hd
    · decide
    · simpa using List.mem_takeWhile_imp hd
  obtain ⟨start, hline⟩ := exists_line_of_end false before (by decide) hbreaks
  refine ⟨start, unbroken, hblanks, ?_⟩
  have hsplit : blanks = unbroken ++ blanks.dropWhile fun c => !isLineBreak c :=
    List.takeWhile_append_dropWhile.symm
  cases hrest : blanks.dropWhile fun c => !isLineBreak c with
  | nil =>
      rw [hrest, List.append_nil] at hsplit
      rw [splitlines, hsplit]
      exact hline
  | cons c after =>
      have hc : isLineBreak c = true := by
        have hhead := List.head_dropWhile_not (fun c => !isLineBreak c) (l := blanks) (by rw [hrest]; simp)
        simpa [hrest] using hhead
      obtain ⟨between, afterReturn, _, hlines⟩ := splitlines_break false (before ++ ',' :: unbroken) after hc
      rw [hrest] at hsplit
      have hwhole : before ++ ',' :: blanks = before ++ ',' :: unbroken ++ c :: after := by
        rw [hsplit]
        simp [unbroken]
      rw [splitlines, hwhole, hlines, List.append_assoc]
      exact List.mem_append_left _ hline

/-! ### Accepted texts -/

/-- The lines of a cleaned text that are not blank. -/
def filledLines (lines : List (List Char)) : List (List Char) := lines.filter fun line => strip line ≠ []

/-- The lines that `parse_jsonx` hands to `json.loads`. -/
def recordLines (text : List Char) : List (List Char) :=
  filledLines (splitlines (stripTrailingCommas (stripComments text)))

theorem filledLines_append (first second : List (List Char)) :
    filledLines (first ++ second) = filledLines first ++ filledLines second := List.filter_append ..

/-- Empty lines are blank. -/
theorem filledLines_empty {lines : List (List Char)} (h : ∀ line ∈ lines, line = []) :
    filledLines lines = [] := by
  rw [filledLines, List.filter_eq_nil_iff]
  intro line hline
  rw [h line hline]
  simp [strip]

/-- A line feed that is skipped would end an empty line. -/
theorem filledLines_splitlinesFrom (afterReturn : Bool) (text : List Char) :
    filledLines (splitlinesFrom afterReturn text) = filledLines (splitlines text) := by
  cases text with
  | nil => rfl
  | cons c rest =>
      by_cases hskip : afterReturn = true ∧ c = '\n'
      · rw [splitlines, hskip.2, splitlinesFrom_break rest (by decide), splitlinesFrom, if_pos ⟨hskip.1, rfl⟩]
        exact (filledLines_append [[]] _).symm
      · by_cases hc : c = '\n'
        · have hfalse : afterReturn = false := Bool.eq_false_iff.mpr fun htrue => hskip ⟨htrue, hc⟩
          rw [hfalse, splitlines]
        · rw [splitlines, splitlinesFrom_false afterReturn rest hc]

/-- The filled lines of a text with a break are those before it and those behind it. -/
theorem filledLines_break (first second : List Char) {c : Char} (hc : isLineBreak c = true) :
    filledLines (splitlines (first ++ c :: second)) =
      filledLines (splitlines first) ++ filledLines (splitlines second) := by
  obtain ⟨between, afterReturn, hbetween, hlines⟩ := splitlines_break false first second hc
  rw [splitlines, hlines, filledLines_append, filledLines_append, filledLines_empty hbetween,
    List.append_nil, filledLines_splitlinesFrom afterReturn second]
  rfl

/-- Where only such characters are left when such characters are dropped, there are no others. -/
theorem all_of_dropWhile {p : Char → Bool} {text : List Char} (h : ∀ c ∈ text.dropWhile p, p c = true) :
    ∀ c ∈ text, p c = true := by
  induction text with
  | nil => exact h
  | cons d rest ih =>
      by_cases hd : p d = true
      · rw [List.dropWhile_cons_of_pos hd] at h
        intro c hc
        rcases List.mem_cons.mp hc with rfl | hc
        · exact hd
        · exact ih h c hc
      · rw [List.dropWhile_cons_of_neg hd] at h
        exact h

/-- A blank line consists of spaces. -/
theorem all_isStrSpace {line : List Char} (h : strip line = []) : ∀ c ∈ line, isStrSpace c = true := by
  rw [strip, List.reverse_eq_nil_iff, List.dropWhile_eq_nil_iff] at h
  exact all_of_dropWhile fun c hc => h c (List.mem_reverse.mpr hc)

/-- A line of spaces is blank. -/
theorem strip_spaces {line : List Char} (h : ∀ c ∈ line, isStrSpace c = true) : strip line = [] := by
  have hdrop : line.dropWhile isStrSpace = [] := List.dropWhile_eq_nil_iff.mpr h
  rw [strip, hdrop]
  rfl

section Accepted

variable {κ ν : Type} [DecidableEq κ] {loads : List Char → Except Exn (Loaded κ ν)}

/-- What is used of `json.loads`: a text that it accepts leaves no string literal open, and no comma
stands at its end. -/
structure JsonLoads (loads : List Char → Except Exn (Loaded κ ν)) : Prop where
  closed : ∀ text value, loads text = .ok value → quotingAfter .outside text = .outside
  noComma : ∀ before blanks value, blanks.all isBlank = true → loads (before ++ ',' :: blanks) ≠ .ok value

/-- The records of the lines, in their order. -/
def ReadsRecords (loads : List Char → Except Exn (Loaded κ ν)) (lines : List (List Char))
    (records : List (OrderedDict κ ν)) : Prop :=
  List.Forall₂ (fun line record => loads line = .ok (.record record)) lines records

/-- The merge of records. -/
def mergeRecords (merged : OrderedDict κ ν) (records : List (OrderedDict κ ν)) : OrderedDict κ ν :=
  records.foldl OrderedDict.update merged

/-- The merge loop returns the merge of the records of the filled lines. -/
theorem mergeLines_ok_iff (lineno : Nat) (merged result : OrderedDict κ ν) (lines : List (List Char)) :
    mergeLines loads lineno merged lines = .ok result ↔
      ∃ records, ReadsRecords loads (filledLines lines) records ∧ result = mergeRecords merged records := by
  induction lines generalizing lineno merged with
  | nil =>
      constructor
      · intro h
        cases h
        exact ⟨[], .nil, rfl⟩
      · rintro ⟨records, hrecords, rfl⟩
        cases hrecords
        rfl
  | cons line lines ih =>
      rw [mergeLines]
      by_cases hblank : strip line = []
      · rw [if_pos hblank, ih, filledLines, filledLines, List.filter_cons_of_neg (by simp [hblank])]
      · rw [if_neg hblank, filledLines, List.filter_cons_of_pos (by simp [hblank])]
        constructor
        · intro h
          split at h
          · cases h
          · cases h
          · cases h
          · rename_i record hrecord
            obtain ⟨records, hrecords, rfl⟩ := (ih ..).mp h
            exact ⟨record :: records, .cons hrecord hrecords, rfl⟩
        · rintro ⟨records, hrecords, rfl⟩
          cases hrecords with
          | cons hrecord hrecords =>
              rw [hrecord]
              exact (ih ..).mpr ⟨_, hrecords, rfl⟩

/-- A text is accepted when `json.loads` reads a record on each of its lines; the result is their merge. -/
theorem parseJsonx_ok_iff {text : List Char} {result : OrderedDict κ ν} :
    parseJsonx loads text = .ok result ↔
      ∃ records, ReadsRecords loads (recordLines text) records ∧ result = mergeRecords .empty records :=
  mergeLines_ok_iff 1 .empty result _

/-- Merging records behind others. -/
theorem mergeRecords_append (merged : OrderedDict κ ν) (first second : List (OrderedDict κ ν)) :
    mergeRecords merged (first ++ second) =
      (mergeRecords merged first).update (mergeRecords .empty second) := by
  have all : ∀ (records : List (OrderedDict κ ν)) (d e : OrderedDict κ ν),
      mergeRecords (d.update e) records = d.update (mergeRecords e records) := by
    intro records
    induction records with
    | nil => exact fun _ _ => rfl
    | cons record records ih =>
        intro d e
        rw [mergeRecords, mergeRecords, List.foldl_cons, List.foldl_cons, OrderedDict.update_update]
        exact ih d (e.update record)
  have hsplit : mergeRecords merged (first ++ second) = mergeRecords (mergeRecords merged first) second :=
    List.foldl_append
  rw [hsplit, ← all, OrderedDict.update_empty]

/-- The lines of a text end outside of literals, when the first one starts with the quoting. -/
def LinesClose (quoting : Quoting) : List (List Char) → Prop
  | [] => quoting = .outside
  | line :: lines => quotingAfter quoting line = .outside ∧ ∀ other ∈ lines, quotingAfter .outside other = .outside

theorem linesClose_outside {lines : List (List Char)}
    (h : ∀ line ∈ lines, quotingAfter .outside line = .outside) : LinesClose .outside lines := by
  cases lines with
  | nil => rfl
  | cons line lines => exact List.forall_mem_cons.mp h

/-- A break is no quote. -/
theorem ne_doubleQuote_of_isLineBreak {c : Char} (h : isLineBreak c = true) : c ≠ doubleQuote := by
  rintro rfl
  exact absurd h (by decide)

/-- A text whose lines end outside of literals ends outside of them. The induction is on the text, with
the quoting at the start of its first line. -/
theorem quotingAfter_of_lines {quoting : Quoting} (afterReturn : Bool) {text : List Char}
    (hreturn : afterReturn = true → quoting = .outside)
    (hclose : LinesClose quoting (splitlinesFrom afterReturn text)) :
    quotingAfter quoting text = .outside := by
  induction text generalizing quoting afterReturn with
  | nil => exact hclose
  | cons c rest ih =>
      rw [splitlinesFrom] at hclose
      rw [quotingAfter_cons]
      split at hclose
      · rename_i hskip
        have hquoting := hreturn hskip.1
        rw [hskip.2, hquoting]
        rw [hquoting] at hclose
        exact ih false (by simp) hclose
      · split at hclose
        · rename_i hbreak
          have hquoting : quoting = .outside := hclose.1
          rw [hquoting, Quoting.outside_after (ne_doubleQuote_of_isLineBreak hbreak)]
          exact ih _ (fun _ => rfl) (linesClose_outside hclose.2)
        · cases hlines : splitlinesFrom false rest with
          | nil =>
              rw [hlines] at hclose
              cases rest with
              | nil => exact hclose.1
              | cons d rest => exact absurd hlines (splitlinesFrom_ne_nil d rest)
          | cons line lines =>
              rw [hlines] at hclose
              refine ih false (by simp) ?_
              rw [hlines]
              exact hclose

omit [DecidableEq κ] in
/-- A record is read from each filled line. -/
theorem ReadsRecords.exists_record {lines : List (List Char)} {records : List (OrderedDict κ ν)}
    (h : ReadsRecords loads (filledLines lines) records) {line : List Char} (hline : line ∈ lines)
    (hfilled : strip line ≠ []) : ∃ record, loads line = .ok (.record record) := by
  have hmem : line ∈ filledLines lines := List.mem_filter.mpr ⟨hline, decide_eq_true hfilled⟩
  rw [ReadsRecords] at h
  generalize filledLines lines = filled at h hmem
  induction h with
  | nil => cases hmem
  | cons hrecord _ ih =>
      rcases List.mem_cons.mp hmem with rfl | hmem
      · exact ⟨_, hrecord⟩
      · exact ih hmem

omit [DecidableEq κ] in
/-- The lines that `json.loads` reads, and the blank ones, end outside of literals. -/
theorem line_closes (hloads : JsonLoads loads) {lines : List (List Char)}
    {records : List (OrderedDict κ ν)} (h : ReadsRecords loads (filledLines lines) records) :
    ∀ line ∈ lines, quotingAfter .outside line = .outside := by
  intro line hline
  by_cases hblank : strip line = []
  · apply quotingAfter_outside
    intro hquote
    exact absurd (all_isStrSpace hblank _ hquote) (by decide)
  · obtain ⟨record, hrecord⟩ := h.exists_record hline hblank
    exact hloads.closed line _ hrecord

omit [DecidableEq κ] in
/-- At every break of a text whose lines are read, and at its end, the scan is outside of literals. -/
theorem quoting_of_read (hloads : JsonLoads loads) {text : List Char} {records : List (OrderedDict κ ν)}
    (h : ReadsRecords loads (filledLines (splitlines text)) records) :
    quotingAfter .outside text = .outside ∧
      ∀ before c after, text = before ++ c :: after → isLineBreak c = true →
        quotingAfter .outside before = .outside := by
  have hclosed := line_closes hloads h
  refine ⟨quotingAfter_of_lines false (by simp) (linesClose_outside hclosed), ?_⟩
  rintro before c after rfl hc
  obtain ⟨between, afterReturn, _, hlines⟩ := splitlines_break false before after hc
  refine quotingAfter_of_lines false (by simp) (linesClose_outside fun line hline => ?_)
  apply hclosed line
  rw [splitlines, hlines, List.append_assoc]
  exact List.mem_append_left _ hline

omit [DecidableEq κ] in
/-- A text whose lines are read does not end in a comma. -/
theorem not_endsInComma_of_read (hloads : JsonLoads loads) {text : List Char}
    {records : List (OrderedDict κ ν)} (h : ReadsRecords loads (filledLines (splitlines text)) records) :
    ¬ EndsInComma .outside text := by
  rintro ⟨before, blanks, rfl, hblanks, _⟩
  obtain ⟨start, blanks', hblanks', hline⟩ := exists_line_of_comma before hblanks
  have hfilled : strip (start ++ ',' :: blanks') ≠ [] := by
    intro hblank
    exact absurd (all_isStrSpace hblank ',' (by simp)) (by decide)
  obtain ⟨record, hrecord⟩ := h.exists_record hline hfilled
  exact hloads.noComma start blanks' _ hblanks' hrecord

end Accepted

/-! ### Samples -/

/-- `json.loads` on the texts of a table; every other text raises the error with the given text. -/
def loadsTable (table : List (List Char × OrderedDict String String)) (errorText : String) (text : List Char) :
    Except Exn (Loaded String String) :=
  match table.lookup text with
  | some record => .ok (.record record)
  | none => .error (.jsonDecodeError errorText)

theorem jsonLoads_loadsTable {table : List (List Char × OrderedDict String String)} (errorText : String)
    (htable : ∀ entry ∈ table, quotingAfter .outside entry.1 = .outside ∧ ',' ∉ entry.1) :
    JsonLoads (loadsTable table errorText) := by
  have hmem : ∀ {text : List Char} {value : Loaded String String}, loadsTable table errorText text = .ok value →
      ∃ entry ∈ table, entry.1 = text := by
    intro text value h
    rw [loadsTable] at h
    split at h
    · rename_i record hlookup
      obtain ⟨before, after, hsplit, _⟩ := List.lookup_eq_some_iff.mp hlookup
      exact ⟨(text, record), by simp [hsplit], rfl⟩
    · cases h
  constructor
  · intro text value h
    obtain ⟨entry, hentry, rfl⟩ := hmem h
    exact (htable entry hentry).1
  · intro before blanks value _ h
    obtain ⟨entry, hentry, htext⟩ := hmem h
    refine (htable entry hentry).2 ?_
    rw [htext]
    exact List.mem_append_right _ List.mem_cons_self

end Priestly
