/-
Module: Priestly.Proofs.ConfigLayers
Layer: Proofs
Purpose: Appending a config to another: the records of both are merged in their order, exactly when the
  first one does not end inside a block comment.
Imports: Mathlib list lemmas, Priestly.Proofs.Scanners
Trusted boundary: none
Main exports: recordLines_append, config_layers_iff
-/
import Mathlib.Data.List.Forall2
import Priestly.Proofs.Scanners

namespace Priestly

section Layers

variable {κ ν : Type} [DecidableEq κ] {loads : List Char → Except Exn (Loaded κ ν)}

/-- Behind an accepted text the scan is outside of literals, and the cleaned text does not end in a
comma. -/
theorem accepted_closed (hloads : JsonLoads loads) {text : List Char} {result : OrderedDict κ ν}
    (h : parseJsonx loads text = .ok result) :
    (modeAfter (.text .outside) text).quoting = .outside ∧ ¬ EndsInComma .outside (stripComments text) := by
  obtain ⟨records, hrecords, _⟩ := parseJsonx_ok_iff.mp h
  constructor
  · have hclosed := (quoting_of_read hloads hrecords).1
    rw [stripTrailingCommas, quotingAfter_stripTrailingCommas] at hclosed
    exact (quotingAfter_stripComments (.text .outside) text).symm.trans hclosed
  · exact fun hcomma => not_endsInComma_of_read hloads hrecords (stripTrailingCommas_comma hcomma)

/-- A line feed behind a cleaned text, and what follows it, do not change its lines. -/
theorem filledLines_cleaned {first : List Char} (second : List Char)
    (hquoting : quotingAfter .outside first = .outside) (hcomma : ¬ EndsInComma .outside first) :
    filledLines (splitlines (stripTrailingCommas (first ++ '\n' :: second))) =
      filledLines (splitlines (stripTrailingCommas first)) ++
        filledLines (splitlines (stripTrailingCommas second)) := by
  have hcommas : stripTrailingCommas (first ++ '\n' :: second) =
      stripTrailingCommas first ++ '\n' :: stripTrailingCommas second := by
    rw [stripTrailingCommas, stripTrailingCommasFrom_append _ hcomma, hquoting]
    rfl
  rw [hcommas]
  exact filledLines_break _ _ (by decide)

/-- The lines of two texts, the first of which is accepted and does not end in a block comment. -/
theorem recordLines_append (hloads : JsonLoads loads) {first : List Char} (second : List Char)
    {result : OrderedDict κ ν} (h : parseJsonx loads first = .ok result)
    (hblock : modeAfter (.text .outside) first ≠ .blockComment) :
    recordLines (first ++ '\n' :: second) = recordLines first ++ recordLines second := by
  obtain ⟨hquoting, hcomma⟩ := accepted_closed hloads h
  have hcleaned : quotingAfter .outside (stripComments first) = .outside :=
    (quotingAfter_stripComments (.text .outside) first).trans hquoting
  rw [recordLines, stripComments_append second hquoting hblock]
  exact filledLines_cleaned _ hcleaned hcomma

/-- Line feeds hold no filled line. -/
theorem filledLines_newlines (k : Nat) :
    filledLines (splitlines (stripTrailingCommas (List.replicate k '\n'))) = [] := by
  have hblanks : (List.replicate k '\n').all isBlank = true := by
    rw [List.all_replicate]
    split
    · rfl
    · decide
  rw [stripTrailingCommas, stripTrailingCommasFrom_blanks hblanks, filledLines, List.filter_eq_nil_iff]
  intro line hline
  have hspaces : ∀ c ∈ line, isStrSpace c = true := by
    intro c hc
    rw [List.eq_of_mem_replicate (mem_of_mem_splitlines hline hc)]
    decide
  simp [strip_spaces hspaces]

/-- The lines of two texts, the first of which is accepted and ends in a block comment, when the second
has no slash: nothing is left of the second. -/
theorem recordLines_swallowed (hloads : JsonLoads loads) {first second : List Char}
    {result : OrderedDict κ ν} (h : parseJsonx loads first = .ok result)
    (hblock : modeAfter (.text .outside) first = .blockComment) (hslash : '/' ∉ second) :
    recordLines (first ++ '\n' :: second) = recordLines first := by
  obtain ⟨hquoting, hcomma⟩ := accepted_closed hloads h
  have hcleaned : quotingAfter .outside (stripComments first) = .outside :=
    (quotingAfter_stripComments (.text .outside) first).trans hquoting
  obtain ⟨k, hk⟩ := stripComments_unclosed hblock hslash
  have hstripped : stripComments (first ++ '\n' :: second) = stripComments first ++ List.replicate k '\n' := hk
  rw [recordLines, hstripped]
  cases k with
  | zero =>
      rw [List.replicate_zero, List.append_nil]
      rfl
  | succ k =>
      rw [List.replicate_succ, filledLines_cleaned _ hcleaned hcomma, filledLines_newlines, List.append_nil]
      rfl

/-- Two layers with a line feed between them. -/
def appendLayer (first second : List Char) : List Char := first ++ '\n' :: second

/-- Whatever accepted text is appended to the first one, the result is that of the first, updated with
that of the other. -/
def LayersAppend (loads : List Char → Except Exn (Loaded κ ν)) (first : List Char) : Prop :=
  ∀ second base layer, parseJsonx loads first = .ok base → parseJsonx loads second = .ok layer →
    parseJsonx loads (appendLayer first second) = .ok (base.update layer)

/-- A text that does not end in a block comment. -/
theorem layersAppend_of_closed (hloads : JsonLoads loads) {first : List Char}
    (hblock : modeAfter (.text .outside) first ≠ .blockComment) : LayersAppend loads first := by
  intro second base layer hfirst hsecond
  obtain ⟨records₁, hrecords₁, hbase⟩ := parseJsonx_ok_iff.mp hfirst
  obtain ⟨records₂, hrecords₂, hlayer⟩ := parseJsonx_ok_iff.mp hsecond
  apply parseJsonx_ok_iff.mpr
  refine ⟨records₁ ++ records₂, ?_, ?_⟩
  · rw [appendLayer, recordLines_append hloads second hfirst hblock]
    exact List.rel_append hrecords₁ hrecords₂
  · rw [mergeRecords_append, hbase, hlayer]

/-- A text that ends in a block comment: a record without slash is ignored behind it. -/
theorem swallowed (hloads : JsonLoads loads) {first : List Char} {base : OrderedDict κ ν}
    (second : List Char) (hblock : modeAfter (.text .outside) first = .blockComment) (hslash : '/' ∉ second)
    (hfirst : parseJsonx loads first = .ok base) :
    parseJsonx loads (appendLayer first second) = .ok base := by
  obtain ⟨records, hrecords, hbase⟩ := parseJsonx_ok_iff.mp hfirst
  apply parseJsonx_ok_iff.mpr
  refine ⟨records, ?_, hbase⟩
  rw [appendLayer, recordLines_swallowed hloads hfirst hblock hslash]
  exact hrecords

/-- A line that sets the password to a text of one character. -/
def passwordLine (c : Char) : List Char := "\x7b\"password\": \"".toList ++ c :: "\"\x7d".toList

/-- A line that `json.loads` reads is accepted on its own. -/
theorem parseJsonx_line {line : List Char} {record : OrderedDict κ ν} (hlines : recordLines line = [line])
    (hline : loads line = .ok (.record record)) : parseJsonx loads line = .ok (OrderedDict.empty.update record) := by
  apply parseJsonx_ok_iff.mpr
  refine ⟨[record], ?_, rfl⟩
  rw [hlines]
  exact .cons hline .nil

/-- Behind a text that ends in a block comment, the law gives a key the value of any record that sets
it. -/
theorem get_of_swallowed (hloads : JsonLoads loads) {first : List Char} {base : OrderedDict κ ν}
    {key : κ} {value : ν} (line : List Char) (hlaw : LayersAppend loads first) (hfirst : parseJsonx loads first = .ok base)
    (hblock : modeAfter (.text .outside) first = .blockComment) (hslash : '/' ∉ line)
    (hlines : recordLines line = [line])
    (hline : loads line = .ok (.record (OrderedDict.empty.set key value))) : base.get key = some value := by
  have hlayer := hlaw line base _ hfirst (parseJsonx_line hlines hline)
  rw [swallowed hloads line hblock hslash hfirst, ← OrderedDict.update_update, OrderedDict.update_empty] at hlayer
  have hbase : base = base.set key value := Except.ok.inj hlayer
  rw [hbase, OrderedDict.get_set]

/-- Appending a config to an accepted one gives the update of the first by the second, whatever the
second is, exactly when the first does not end inside a block comment. -/
theorem config_layers_iff (hloads : JsonLoads loads) {key : κ} {one two : ν} (hne : one ≠ two)
    (hone : loads (passwordLine 'a') = .ok (.record (OrderedDict.empty.set key one)))
    (htwo : loads (passwordLine 'b') = .ok (.record (OrderedDict.empty.set key two)))
    {first : List Char} {base : OrderedDict κ ν} (hfirst : parseJsonx loads first = .ok base) :
    LayersAppend loads first ↔ modeAfter (.text .outside) first ≠ .blockComment := by
  constructor
  · intro hlaw hblock
    have hgetOne := get_of_swallowed hloads _ hlaw hfirst hblock (by decide) (by decide) hone
    have hgetTwo := get_of_swallowed hloads _ hlaw hfirst hblock (by decide) (by decide) htwo
    rw [hgetOne] at hgetTwo
    exact hne (Option.some.inj hgetTwo)
  · exact layersAppend_of_closed hloads

end Layers

/-- `json.loads` on the two lines. -/
def passwordLoads : List Char → Except Exn (Loaded String String) :=
  loadsTable [(passwordLine 'a', OrderedDict.empty.set "password" "a"),
    (passwordLine 'b', OrderedDict.empty.set "password" "b")] "Expecting value: line 1 column 1 (char 0)"

theorem jsonLoads_passwordLoads : JsonLoads passwordLoads :=
  jsonLoads_loadsTable _ (by decide)

/-- A line without comment: every layer may be appended. -/
theorem config_layers_password : LayersAppend passwordLoads (passwordLine 'a') :=
  (config_layers_iff jsonLoads_passwordLoads (by decide : "a" ≠ "b") rfl rfl
    (parseJsonx_line (by decide) rfl)).mpr (by decide)

/-- A block comment that is not closed: the password in the line behind it is ignored. -/
theorem unclosed_comment_ignores_password :
    ¬ LayersAppend passwordLoads (passwordLine 'a' ++ "/* note".toList) ∧
      parseJsonx passwordLoads (appendLayer (passwordLine 'a' ++ "/* note".toList) (passwordLine 'b')) =
        .ok (OrderedDict.empty.set "password" "a") := by
  have hfirst : parseJsonx passwordLoads (passwordLine 'a' ++ "/* note".toList) =
      .ok (OrderedDict.empty.set "password" "a") := by
    rfl
  have hblock : modeAfter (.text .outside) (passwordLine 'a' ++ "/* note".toList) = .blockComment := by
    decide
  have hignored := swallowed jsonLoads_passwordLoads (passwordLine 'b') hblock (by decide) hfirst
  refine ⟨fun hlaw => ?_, hignored⟩
  have hget := get_of_swallowed jsonLoads_passwordLoads (passwordLine 'b') hlaw hfirst hblock
    (by decide) (by decide) rfl
  rw [OrderedDict.get_set] at hget
  exact absurd (Option.some.inj hget) (by decide)

end Priestly
