/-
Module: Priestly.Proofs.CommentStripping
Layer: Proofs
Purpose: What `_strip_comments` does to a text read as literals, comments and code: the literals and the code
  stay as they are, of a comment only line feeds stay, and what is left reads as the same literals and code
  again, so no comment sign can come about where a comment is taken out.
Imports: Priestly.Proofs.Scanners
Trusted boundary: none
Main exports: Segment, segments, literals, stripComments_eq, segments_stripComments, keptFrom, numbered,
  comments_stripped
-/
import Priestly.Proofs.Scanners

namespace Priestly

open ScanMode

/-! ### What a text is made of -/

/-- A stretch of a text. -/
inductive Segment where
  | code (c : Char)
  | literal (chars : List Char)
  | lineComment (chars : List Char)
  | blockComment (content : List Char) (closed : Bool)
deriving DecidableEq, Repr

namespace Segment

/-- The characters of the stretch. -/
def text : Segment → List Char
  | code c => [c]
  | literal chars | lineComment chars => chars
  | blockComment content closed => '/' :: '*' :: content ++ if closed then ['*', '/'] else []

/-- What is left when comments go. The loop in a comment that is not closed ends before its last character. -/
def left : Segment → List Segment
  | code c => [code c]
  | literal chars => [literal chars]
  | lineComment _ => []
  | blockComment content closed =>
      ((if closed then content else content.dropLast).filter (· = '\n')).map code

/-- The characters of a literal. -/
def literal? : Segment → Option (List Char)
  | literal chars => some chars
  | _ => none

/-- The stretch is not a comment. -/
def IsLeft : Segment → Prop
  | code _ | literal _ => True
  | lineComment _ | blockComment _ _ => False

end Segment

/-- The rest of a literal that has been opened, with the quote that closes it. -/
def literalBody (escaped : Bool) : List Char → List Char
  | [] => []
  | c :: rest =>
      match (Quoting.inside escaped).after c with
      | .outside => [c]
      | .inside escaped => c :: literalBody escaped rest

/-- What stands behind it. -/
def behindLiteral (escaped : Bool) : List Char → List Char
  | [] => []
  | c :: rest =>
      match (Quoting.inside escaped).after c with
      | .outside => rest
      | .inside escaped => behindLiteral escaped rest

/-- A block comment is closed at the character. -/
def closesBlock (c : Char) (ahead : Option Char) : Bool := c = '*' && ahead = some '/'

/-- The content of a block comment that has been opened. -/
def blockContent : List Char → List Char
  | [] => []
  | c :: rest => if closesBlock c rest.head? then [] else c :: blockContent rest

/-- Whether it is closed. -/
def blockClosed : List Char → Bool
  | [] => false
  | c :: rest => closesBlock c rest.head? || blockClosed rest

/-- What stands behind the two characters that close it. -/
def behindBlock : List Char → List Char
  | [] => []
  | c :: rest => if closesBlock c rest.head? then rest.tail else behindBlock rest

theorem length_behindLiteral_le (escaped : Bool) (text : List Char) :
    (behindLiteral escaped text).length ≤ text.length := by
  induction text generalizing escaped with
  | nil => exact Nat.le_refl _
  | cons c rest ih =>
      rw [behindLiteral]
      split
      · exact Nat.le_succ _
      · exact (ih _).trans (Nat.le_succ _)

theorem length_behindBlock_le (text : List Char) : (behindBlock text).length ≤ text.length := by
  induction text with
  | nil => exact Nat.le_refl _
  | cons c rest ih =>
      rw [behindBlock]
      split
      · simp only [List.length_tail, List.length_cons]
        omega
      · exact ih.trans (Nat.le_succ _)

/-- The stretches of a text: a literal or a comment from where it starts, and else one character. -/
def segments : List Char → List Segment
  | [] => []
  | c :: rest =>
      if c = doubleQuote then .literal (c :: literalBody false rest) :: segments (behindLiteral false rest)
      else if opensLine c rest.head? then
        .lineComment (c :: rest.takeWhile (· ≠ '\n')) :: segments (rest.dropWhile (· ≠ '\n'))
      else if opensBlock c rest.head? then
        .blockComment (blockContent rest.tail) (blockClosed rest.tail) :: segments (behindBlock rest.tail)
      else .code c :: segments rest
termination_by text => text.length
decreasing_by
  · exact Nat.lt_succ_of_le (length_behindLiteral_le false rest)
  · exact Nat.lt_succ_of_le (List.length_dropWhile_le _ rest)
  · have := length_behindBlock_le rest.tail
    simp only [List.length_tail, List.length_cons] at *
    omega
  · exact Nat.lt_succ_self _

/-- The string literals of a text that start outside of comments, in order. -/
def literals (text : List Char) : List (List Char) := (segments text).filterMap Segment.literal?

/-! ### The scanner, stretch by stretch -/

theorem literalBody_append (escaped : Bool) (text : List Char) :
    literalBody escaped text ++ behindLiteral escaped text = text := by
  induction text generalizing escaped with
  | nil => rfl
  | cons c rest ih =>
      rw [literalBody, behindLiteral]
      split
      · rfl
      · rw [List.cons_append, ih]

/-- A literal is kept. -/
theorem stripCommentsFrom_literal (escaped : Bool) (text : List Char) :
    stripCommentsFrom (.text (.inside escaped)) text =
      literalBody escaped text ++ stripComments (behindLiteral escaped text) := by
  induction text generalizing escaped with
  | nil => rfl
  | cons c rest ih =>
      have hkept : stripCommentsFrom (.text (.inside escaped)) (c :: rest) =
          c :: stripCommentsFrom (.text ((Quoting.inside escaped).after c)) rest := rfl
      rw [hkept, literalBody, behindLiteral]
      split
      case _ hafter =>
        rw [hafter]
        rfl
      case _ hafter =>
        rw [hafter, ih]
        rfl

/-- Of a line comment nothing is kept. -/
theorem stripCommentsFrom_lineComment (text : List Char) :
    stripCommentsFrom .lineComment text = stripComments (text.dropWhile (· ≠ '\n')) := by
  induction text with
  | nil => rfl
  | cons c rest ih =>
      by_cases hc : c = '\n'
      · rw [hc]
        rfl
      · rw [stripCommentsFrom, keeps, next, if_neg (by simpa using hc), if_neg hc, ih,
          List.dropWhile_cons_of_pos (by simpa using hc)]

theorem blockContent_append (text : List Char) :
    blockContent text ++ (if blockClosed text then ['*', '/'] else []) ++ behindBlock text = text := by
  induction text with
  | nil => rfl
  | cons c rest ih =>
      rw [blockContent, blockClosed, behindBlock]
      by_cases hclose : closesBlock c rest.head? = true
      · have hsigns : c = '*' ∧ rest.head? = some '/' := by simpa [closesBlock] using hclose
        obtain ⟨later, rfl⟩ : ∃ later, rest = '/' :: later := List.head?_eq_some_iff.mp hsigns.2
        rw [if_pos hclose, if_pos hclose, hclose, hsigns.1]
        rfl
      · rw [if_neg hclose, if_neg hclose, Bool.eq_false_iff.mpr hclose, Bool.false_or, List.cons_append,
          List.cons_append, ih]

/-- The stretches make up the text. -/
theorem flatMap_segments (text : List Char) : (segments text).flatMap Segment.text = text := by
  fun_induction segments text with
  | case1 => rfl
  | case2 rest ih =>
      rw [List.flatMap_cons, ih]
      exact congrArg (doubleQuote :: ·) (literalBody_append false rest)
  | case3 c rest hquote hline ih =>
      rw [List.flatMap_cons, ih]
      exact congrArg (c :: ·) (List.takeWhile_append_dropWhile)
  | case4 c rest hquote hline hblock ih =>
      have hsigns : c = '/' ∧ rest.head? = some '*' := by simpa [opensBlock] using hblock
      obtain ⟨later, rfl⟩ : ∃ later, rest = '*' :: later := List.head?_eq_some_iff.mp hsigns.2
      rw [List.flatMap_cons, ih, hsigns.1]
      exact congrArg (fun behind => '/' :: '*' :: behind) (blockContent_append later)
  | case5 c rest hquote hline hblock ih =>
      rw [List.flatMap_cons, ih]
      rfl

theorem blockContent_of_open {text : List Char} (h : blockClosed text = false) : blockContent text = text := by
  induction text with
  | nil => rfl
  | cons c rest ih =>
      rw [blockClosed, Bool.or_eq_false_iff] at h
      rw [blockContent, h.1, ih h.2]
      rfl

/-- The line feeds that stay of the content of a block comment. -/
def keptLineFeeds (content : List Char) (closed : Bool) : List Char :=
  (if closed then content else content.dropLast).filter (· = '\n')

/-- Of a block comment only line feeds are kept. -/
theorem stripCommentsFrom_blockComment (text : List Char) :
    stripCommentsFrom .blockComment text =
      keptLineFeeds (blockContent text) (blockClosed text) ++ stripComments (behindBlock text) := by
  induction text with
  | nil => rfl
  | cons c rest ih =>
      rw [stripCommentsFrom, blockContent, blockClosed, behindBlock, next]
      by_cases hclose : closesBlock c rest.head? = true
      · have hsigns : c = '*' ∧ rest.head? = some '/' := by simpa [closesBlock] using hclose
        obtain ⟨later, rfl⟩ : ∃ later, rest = '/' :: later := List.head?_eq_some_iff.mp hsigns.2
        rw [if_pos hclose, if_pos hclose, if_pos hsigns, hclose, hsigns.1]
        rfl
      · have hsigns : ¬(c = '*' ∧ rest.head? = some '/') := by simpa [closesBlock] using hclose
        have hfalse : closesBlock c rest.head? = false := Bool.eq_false_iff.mpr hclose
        rw [if_neg hclose, if_neg hclose, if_neg hsigns, ih, hfalse, Bool.false_or]
        cases rest with
        | nil => simp [keeps, keptLineFeeds, blockContent, blockClosed]
        | cons d later =>
            have hkeeps : ScanMode.blockComment.keeps c (d :: later).head? = decide (c = '\n') := by
              simp [keeps]
            rw [hkeeps]
            have hcons : keptLineFeeds (c :: blockContent (d :: later)) (blockClosed (d :: later)) =
                if c = '\n' then c :: keptLineFeeds (blockContent (d :: later)) (blockClosed (d :: later))
                else keptLineFeeds (blockContent (d :: later)) (blockClosed (d :: later)) := by
              rw [keptLineFeeds, keptLineFeeds]
              cases hclosed : blockClosed (d :: later) with
              | true => simp [List.filter_cons]
              | false =>
                  rw [blockContent_of_open hclosed]
                  simp [List.filter_cons]
            rw [hcons]
            simp only [decide_eq_true_eq]
            split
            · rfl
            · rfl

/-- How the scan of a text begins. -/
theorem stripComments_cons (c : Char) (rest : List Char) :
    stripComments (c :: rest) =
      if c = doubleQuote then c :: literalBody false rest ++ stripComments (behindLiteral false rest)
      else if opensLine c rest.head? then stripComments (rest.dropWhile (· ≠ '\n'))
      else if opensBlock c rest.head? then
        keptLineFeeds (blockContent rest.tail) (blockClosed rest.tail) ++ stripComments (behindBlock rest.tail)
      else c :: stripComments rest := by
  rw [stripComments, stripCommentsFrom, keeps, next]
  by_cases hquote : c = doubleQuote
  · have hline : opensLine c rest.head? = false := by
      rw [hquote]
      rfl
    have hblock : opensBlock c rest.head? = false := by
      rw [hquote]
      rfl
    rw [if_pos hquote, hline, hblock, Quoting.after, if_pos hquote]
    show c :: stripCommentsFrom (.text (.inside false)) rest = _
    rw [stripCommentsFrom_literal]
    rfl
  · rw [if_neg hquote, Quoting.after, if_neg hquote]
    by_cases hline : opensLine c rest.head? = true
    · rw [if_pos hline, if_pos hline, hline, if_neg (by simp), stripCommentsFrom_lineComment]
    · rw [if_neg hline, if_neg hline, Bool.eq_false_iff.mpr hline]
      by_cases hblock : opensBlock c rest.head? = true
      · have hsigns : c = '/' ∧ rest.head? = some '*' := by simpa [opensBlock] using hblock
        obtain ⟨later, rfl⟩ : ∃ later, rest = '*' :: later := List.head?_eq_some_iff.mp hsigns.2
        rw [if_pos hblock, if_pos hblock, hblock, if_neg (by simp)]
        exact stripCommentsFrom_blockComment later
      · rw [if_neg hblock, if_neg hblock, Bool.eq_false_iff.mpr hblock, if_pos (by simp)]
        rfl

/-! ### What is left -/

/-- What is left of a text is what is left of its stretches. -/
theorem stripComments_eq (text : List Char) :
    stripComments text = (segments text).flatMap fun segment => segment.left.flatMap Segment.text := by
  have hcodes : ∀ chars : List Char, (chars.map Segment.code).flatMap Segment.text = chars := by
    intro chars
    induction chars with
    | nil => rfl
    | cons c rest ih => exact congrArg (c :: ·) ih
  fun_induction segments text with
  | case1 => rfl
  | case2 rest ih =>
      rw [stripComments_cons, if_pos rfl, List.flatMap_cons, ← ih]
      simp [Segment.left, Segment.text]
  | case3 c rest hquote hline ih =>
      rw [stripComments_cons, if_neg hquote, if_pos hline, List.flatMap_cons, ← ih]
      rfl
  | case4 c rest hquote hline hblock ih =>
      rw [stripComments_cons, if_neg hquote, if_neg hline, if_pos hblock, List.flatMap_cons, ← ih]
      rw [Segment.left, hcodes]
      rfl
  | case5 c rest hquote hline hblock ih =>
      rw [stripComments_cons, if_neg hquote, if_neg hline, if_neg hblock, List.flatMap_cons, ← ih]
      rfl

/-- A literal ends where it ended, unless it was open and something else follows now. -/
theorem literal_again (escaped : Bool) (text out : List Char) (h : behindLiteral escaped text = [] → out = []) :
    literalBody escaped (literalBody escaped text ++ out) = literalBody escaped text ∧
      behindLiteral escaped (literalBody escaped text ++ out) = out := by
  induction text generalizing escaped with
  | nil =>
      rw [h rfl]
      exact ⟨rfl, rfl⟩
  | cons c rest ih =>
      rw [behindLiteral] at h
      rw [literalBody]
      cases hafter : (Quoting.inside escaped).after c with
      | outside =>
          simp [literalBody, behindLiteral, hafter]
      | inside escaped' =>
          rw [hafter] at h
          obtain ⟨hbody, hbehind⟩ := ih escaped' h
          simp only [List.cons_append, literalBody, behindLiteral, hafter]
          exact ⟨congrArg (c :: ·) hbody, hbehind⟩

/-- What is left behind a slash does not begin with a sign that would make the two of them a comment: where a
comment is taken out, a line feed is next, or nothing. -/
theorem head_stripComments {text : List Char} (h : text.head? ≠ some '/' ∧ text.head? ≠ some '*') :
    (stripComments text).head? ≠ some '/' ∧ (stripComments text).head? ≠ some '*' := by
  cases text with
  | nil => exact h
  | cons c rest =>
      simp only [List.head?_cons, ne_eq, Option.some.injEq] at h
      have hblock : opensBlock c rest.head? = false := by simp [opensBlock, h.1]
      rw [stripComments_cons, hblock]
      split
      · simpa using h
      · split
        · have hdrop : ∀ later : List Char, (stripComments (later.dropWhile (· ≠ '\n'))).head? = none ∨
              (stripComments (later.dropWhile (· ≠ '\n'))).head? = some '\n' := by
            intro later
            induction later with
            | nil => exact .inl rfl
            | cons d later ih =>
                by_cases hd : d = '\n'
                · rw [hd]
                  exact .inr rfl
                · rw [List.dropWhile_cons_of_pos (by simpa using hd)]
                  exact ih
          rcases hdrop rest with hhead | hhead
          · rw [hhead]
            simp
          · rw [hhead]
            simp
        · simpa using h

/-- A character that starts no comment starts none in what is left. -/
theorem opens_stripComments {c : Char} {rest : List Char} (hline : ¬opensLine c rest.head? = true)
    (hblock : ¬opensBlock c rest.head? = true) :
    ¬opensLine c (stripComments rest).head? = true ∧ ¬opensBlock c (stripComments rest).head? = true := by
  simp only [opensLine, opensBlock, Bool.or_eq_true, Bool.and_eq_true, decide_eq_true_eq, not_or,
    not_and] at hline hblock ⊢
  by_cases hslash : c = '/'
  · obtain ⟨hfirst, hsecond⟩ := head_stripComments ⟨hline.2 hslash, hblock hslash⟩
    exact ⟨⟨hline.1, fun _ => hfirst⟩, fun _ => hsecond⟩
  · exact ⟨⟨hline.1, fun h => absurd h hslash⟩, fun h => absurd h hslash⟩

/-- Line feeds read as code. -/
theorem segments_lineFeeds {lineFeeds : List Char} (out : List Char) (h : ∀ c ∈ lineFeeds, c = '\n') :
    segments (lineFeeds ++ out) = lineFeeds.map Segment.code ++ segments out := by
  induction lineFeeds with
  | nil => rfl
  | cons c rest ih =>
      have hc : c = '\n' := h c List.mem_cons_self
      rw [List.cons_append, segments, hc, if_neg (by decide), if_neg (by simp [opensLine]),
        if_neg (by simp [opensBlock]), ih fun d hd => h d (List.mem_cons_of_mem _ hd)]
      rfl

/-- What is left of a text reads as what is left of its stretches: the same literals and the same code, and line
feeds for the comments. -/
theorem segments_stripComments (text : List Char) :
    segments (stripComments text) = (segments text).flatMap Segment.left := by
  fun_induction segments text with
  | case1 => rw [List.flatMap_nil, stripComments, stripCommentsFrom, segments]
  | case2 rest ih =>
      have hagain := literal_again false rest (stripComments (behindLiteral false rest)) (by
        intro hbehind
        rw [hbehind]
        rfl)
      rw [stripComments_cons, if_pos rfl, List.cons_append, segments, if_pos rfl, hagain.1, hagain.2, ih]
      rfl
  | case3 c rest hquote hline ih =>
      rw [stripComments_cons, if_neg hquote, if_pos hline, ih]
      rfl
  | case4 c rest hquote hline hblock ih =>
      have hfeeds : ∀ d ∈ keptLineFeeds (blockContent rest.tail) (blockClosed rest.tail), d = '\n' := by
        intro d hd
        simpa using (List.mem_filter.mp hd).2
      rw [stripComments_cons, if_neg hquote, if_neg hline, if_pos hblock, segments_lineFeeds _ hfeeds, ih]
      rfl
  | case5 c rest hquote hline hblock ih =>
      obtain ⟨hline', hblock'⟩ := opens_stripComments hline hblock
      rw [stripComments_cons, if_neg hquote, if_neg hline, if_neg hblock, segments, if_neg hquote,
        if_neg hline', if_neg hblock', ih]
      rfl

/-- A text made of literals and code is left as it is. -/
theorem left_left (segment : Segment) : segment.left.flatMap Segment.left = segment.left := by
  have hcodes : ∀ chars : List Char,
      (chars.map Segment.code).flatMap Segment.left = chars.map Segment.code := by
    intro chars
    induction chars with
    | nil => rfl
    | cons c rest ih => exact congrArg (Segment.code c :: ·) ih
  cases segment with
  | code c => rfl
  | literal chars => rfl
  | lineComment chars => rfl
  | blockComment content closed => exact hcodes _

/-- Stripping what has been stripped changes nothing. -/
theorem stripComments_stripComments (text : List Char) :
    stripComments (stripComments text) = stripComments text := by
  rw [stripComments_eq (stripComments text), segments_stripComments, stripComments_eq text,
    List.flatMap_assoc]
  apply List.flatMap_congr
  intro segment _
  rw [← List.flatMap_assoc, left_left]

/-- The literals of what is left are the literals of the text. -/
theorem literals_stripComments (text : List Char) : literals (stripComments text) = literals text := by
  rw [literals, literals, segments_stripComments, List.filterMap_flatMap, List.filterMap_eq_flatMap_toList]
  apply List.flatMap_congr
  intro segment _
  cases segment with
  | code c => rfl
  | literal chars => rfl
  | lineComment chars => rfl
  | blockComment content closed =>
      rw [Segment.left, List.filterMap_map]
      apply List.filterMap_eq_nil_iff.mpr
      intro c _
      rfl

/-! ### Comment signs outside of literals -/

theorem stripCommentsFrom_sublist (mode : ScanMode) (text : List Char) :
    (stripCommentsFrom mode text).Sublist text := by
  induction text generalizing mode with
  | nil => exact List.Sublist.refl _
  | cons c rest ih =>
      rw [stripCommentsFrom]
      split
      · exact (ih _).cons_cons c
      · exact (ih _).cons c

/-- A text that is left as it is: every character of it is kept, so the scanner never leaves the text. -/
theorem keeps_of_unchanged {quoting : Quoting} {before after : List Char} {c : Char}
    (h : stripCommentsFrom (.text quoting) (before ++ c :: after) = before ++ c :: after) :
    (ScanMode.text (quotingAfter quoting before)).keeps c after.head? = true := by
  have hkept : ∀ (quoting : Quoting) (d : Char) (later : List Char),
      stripCommentsFrom (.text quoting) (d :: later) = d :: later →
        (ScanMode.text quoting).keeps d later.head? = true ∧
          stripCommentsFrom (.text (quoting.after d)) later = later := by
    intro quoting d later hsame
    rw [stripCommentsFrom] at hsame
    by_cases hkeeps : (ScanMode.text quoting).keeps d later.head? = true
    · have hnext : (ScanMode.text quoting).next d later.head? = .text (quoting.after d) := by
        cases quoting with
        | outside =>
            have hsigns : opensLine d later.head? = false ∧ opensBlock d later.head? = false := by
              simpa [keeps] using hkeeps
            rw [next, hsigns.1, hsigns.2]
            rfl
        | inside escaped => rfl
      rw [if_pos hkeeps, hnext] at hsame
      exact ⟨hkeeps, List.cons.inj hsame |>.2⟩
    · rw [if_neg hkeeps] at hsame
      have hlength := (stripCommentsFrom_sublist ((ScanMode.text quoting).next d later.head?) later).length_le
      rw [hsame, List.length_cons] at hlength
      omega
  induction before generalizing quoting with
  | nil => exact (hkept quoting c after h).1
  | cons d before ih =>
      obtain ⟨_, hlater⟩ := hkept quoting d (before ++ c :: after) h
      exact ih hlater

/-- Outside of literals no comment sign is left. -/
theorem no_sign_left {text before after : List Char} {c : Char}
    (h : stripComments text = before ++ c :: after) (hquoting : quotingAfter .outside before = .outside) :
    opensLine c after.head? = false ∧ opensBlock c after.head? = false := by
  have hsame := stripComments_stripComments text
  rw [h] at hsame
  have hkeeps := keeps_of_unchanged hsame
  rw [hquoting] at hkeeps
  simpa [keeps] using hkeeps

/-! ### Line numbers -/

/-- The characters of a text, each with the number of line feeds before it. -/
def numbered (lines : Nat) : List Char → List (Nat × Char)
  | [] => []
  | c :: rest => (lines, c) :: numbered (if c = '\n' then lines + 1 else lines) rest

/-- The characters that the loop of `_strip_comments` keeps, each with the number of line feeds before it in
the text. -/
def keptFrom (mode : ScanMode) (lines : Nat) : List Char → List (Nat × Char)
  | [] => []
  | c :: rest =>
      let later := keptFrom (mode.next c rest.head?) (if c = '\n' then lines + 1 else lines) rest
      if mode.keeps c rest.head? then (lines, c) :: later else later

theorem map_snd_keptFrom (mode : ScanMode) (lines : Nat) (text : List Char) :
    (keptFrom mode lines text).map Prod.snd = stripCommentsFrom mode text := by
  induction text generalizing mode lines with
  | nil => rfl
  | cons c rest ih =>
      rw [keptFrom, stripCommentsFrom]
      split
      · exact congrArg (c :: ·) (ih _ _)
      · exact ih _ _

theorem keptFrom_sublist (mode : ScanMode) (lines : Nat) (text : List Char) :
    (keptFrom mode lines text).Sublist (numbered lines text) := by
  induction text generalizing mode lines with
  | nil => exact List.Sublist.refl _
  | cons c rest ih =>
      rw [keptFrom, numbered]
      split
      · exact (ih _ _).cons_cons _
      · exact (ih _ _).cons _

/-- Between the two characters of a comment sign stands the second of them. -/
def AtSign (mode : ScanMode) (text : List Char) : Prop :=
  (mode = .blockOpening → text.head? = some '*') ∧ (mode = .blockClosing → text.head? = some '/')

theorem atSign_next (mode : ScanMode) (c : Char) (rest : List Char) :
    AtSign (mode.next c rest.head?) rest := by
  cases mode with
  | text quoting =>
      cases quoting with
      | outside =>
          rw [next]
          split
          · simp [AtSign]
          · split
            case _ hblock =>
              have hsigns : c = '/' ∧ rest.head? = some '*' := by simpa [opensBlock] using hblock
              simp [AtSign, hsigns.2]
            case _ => simp [AtSign]
      | inside escaped => simp [AtSign, next]
  | lineComment =>
      rw [next]
      split
      · simp [AtSign]
      · simp [AtSign]
  | blockOpening => simp [AtSign, next]
  | blockComment =>
      rw [next]
      split
      case _ hsigns => simp [AtSign, hsigns.2]
      case _ => simp [AtSign]
  | blockClosing => simp [AtSign, next]

/-- A line feed that is dropped is the last character of the text. -/
theorem last_of_dropped {mode : ScanMode} {rest : List Char} (hsign : AtSign mode ('\n' :: rest))
    (h : ¬mode.keeps '\n' rest.head? = true) : rest = [] := by
  cases mode with
  | text quoting =>
      cases quoting with
      | outside => simp [keeps, opensLine, opensBlock] at h
      | inside escaped => simp [keeps] at h
  | lineComment => simp [keeps] at h
  | blockOpening => exact absurd (hsign.1 rfl) (by simp)
  | blockComment => simpa [keeps] using h
  | blockClosing => exact absurd (hsign.2 rfl) (by simp)

/-- A character that is kept has as many line feeds before it in what is left as in the text. -/
theorem keptFrom_eq {mode : ScanMode} (lines : Nat) {text : List Char} (hsign : AtSign mode text) :
    keptFrom mode lines text = numbered lines (stripCommentsFrom mode text) := by
  induction text generalizing mode lines with
  | nil => rfl
  | cons c rest ih =>
      rw [keptFrom, stripCommentsFrom]
      have hlater := ih (if c = '\n' then lines + 1 else lines) (atSign_next mode c rest)
      by_cases hkeeps : mode.keeps c rest.head? = true
      · rw [if_pos hkeeps, if_pos hkeeps, hlater, numbered]
      · rw [if_neg hkeeps, if_neg hkeeps, hlater]
        by_cases hc : c = '\n'
        · subst hc
          rw [last_of_dropped hsign hkeeps]
          rfl
        · rw [if_neg hc]

/-! ### The scanner as a whole -/

theorem isLeft_stripComments {text : List Char} {segment : Segment}
    (h : segment ∈ segments (stripComments text)) : segment.IsLeft := by
  rw [segments_stripComments] at h
  obtain ⟨origin, _, hleft⟩ := List.mem_flatMap.mp h
  cases origin with
  | code c =>
      rw [List.mem_singleton.mp hleft]
      trivial
  | literal chars =>
      rw [List.mem_singleton.mp hleft]
      trivial
  | lineComment chars => cases hleft
  | blockComment content closed =>
      obtain ⟨c, _, rfl⟩ := List.mem_map.mp hleft
      trivial

/-- What `_strip_comments` makes of any text. The text is its literals, comments and code one after the other;
what is left is a subsequence of it with the same literals and no comment; outside of literals it has no
comment sign; each character that is kept has as many line feeds before it as it had in the text; and stripping
again changes nothing. -/
theorem comments_stripped (text : List Char) :
    (segments text).flatMap Segment.text = text ∧ (stripComments text).Sublist text ∧
      literals (stripComments text) = literals text ∧
      (∀ segment ∈ segments (stripComments text), segment.IsLeft) ∧
      (∀ before c after, stripComments text = before ++ c :: after → quotingAfter .outside before = .outside →
        c ≠ '#' ∧ (c = '/' → after.head? ≠ some '/' ∧ after.head? ≠ some '*')) ∧
      ((keptFrom (.text .outside) 0 text).Sublist (numbered 0 text) ∧
        (keptFrom (.text .outside) 0 text).map Prod.snd = stripComments text ∧
        keptFrom (.text .outside) 0 text = numbered 0 (stripComments text)) ∧
      stripComments (stripComments text) = stripComments text := by
  refine ⟨flatMap_segments text, stripCommentsFrom_sublist _ text, literals_stripComments text,
    fun segment => isLeft_stripComments, ?_, ?_, stripComments_stripComments text⟩
  · intro before c after hsplit hquoting
    obtain ⟨hline, hblock⟩ := no_sign_left hsplit hquoting
    simp only [opensLine, opensBlock, Bool.or_eq_false_iff, Bool.and_eq_false_imp, decide_eq_true_eq,
      decide_eq_false_iff_not] at hline hblock
    exact ⟨hline.1, fun hslash => ⟨hline.2 hslash, hblock hslash⟩⟩
  · exact ⟨keptFrom_sublist _ 0 text, map_snd_keptFrom _ 0 text, keptFrom_eq 0 (by simp [AtSign])⟩

/-- A comment sign in a literal, a comment over two lines, and a slash with a comment right behind it. -/
theorem comments_stripped_sample :
    let text := [doubleQuote, '#', doubleQuote, '/', '*', '\n', '*', '/', '/', '#']
    literals text = [[doubleQuote, '#', doubleQuote]] ∧
      stripComments text = [doubleQuote, '#', doubleQuote, '\n'] ++ ['/'] ∧
        ([] : List Char).head? ≠ some '/' ∧ ([] : List Char).head? ≠ some '*' := by
  intro text
  obtain ⟨_, _, hliterals, _, hsigns, _⟩ := comments_stripped text
  have hleft : stripComments text = [doubleQuote, '#', doubleQuote, '\n'] ++ ['/'] := by decide
  refine ⟨?_, hleft, (hsigns _ '/' [] hleft (by decide)).2 rfl⟩
  rw [← hliterals, hleft]
  simp [literals, segments, opensLine, opensBlock, Quoting.after, doubleQuote, backslash, Segment.literal?,
    literalBody, behindLiteral]

end Priestly
