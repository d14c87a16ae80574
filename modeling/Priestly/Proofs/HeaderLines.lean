/-
Module: Priestly.Proofs.HeaderLines
Layer: Proofs
Purpose: A header block is the lines it was put together from: it ends with its only empty line, it is split
  into these lines again, and the fields on them are found under their names. Base64 text fits on a line and
  is left as it is by `strip`.
Imports: Priestly.Proofs.OpeningRequest
Trusted boundary: none
Main exports: headerText, headerBlock_headerText, fieldLine, parseHeaders_headerText, b64_printable
-/
import Priestly.Proofs.OpeningRequest

namespace Priestly

open ByteCodec

/-! ### The lines of a header block -/

/-- The end of a line. -/
def crlf : List Char := ['\r', '\n']

/-- A header block with the given lines. -/
def headerText (lines : List (List Char)) : List Char := lines.flatMap (· ++ crlf) ++ crlf

/-- A text that fits on a line of a header block. -/
def IsLine (line : List Char) : Prop := line ≠ [] ∧ ∀ c ∈ line, c ≠ '\r' ∧ c ≠ '\n'

theorem splitCrlf_ne_nil (text : List Char) : splitCrlf text ≠ [] := by
  fun_induction splitCrlf text with
  | case1 => exact List.cons_ne_nil _ _
  | case2 rest ih => exact List.cons_ne_nil _ _
  | case3 c rest _ hnil ih => exact List.cons_ne_nil _ _
  | case4 c rest _ line lines hcons ih => exact List.cons_ne_nil _ _

/-- A line break splits. -/
theorem splitCrlf_break (first second : List Char) :
    splitCrlf (first ++ (crlf ++ second)) = splitCrlf first ++ splitCrlf second := by
  fun_induction splitCrlf first with
  | case1 => rfl
  | case2 rest ih =>
      rw [List.cons_append, List.cons_append, splitCrlf, ih]
      rfl
  | case3 c rest _ hnil ih => exact absurd hnil (splitCrlf_ne_nil rest)
  | case4 c rest hother line lines hcons ih =>
      rw [hcons] at ih
      have hother' : c = '\r' → ∀ more, rest ++ (crlf ++ second) ≠ '\n' :: more := by
        rintro rfl more hmore
        cases rest with
        | nil => cases hmore
        | cons next rest =>
            rw [List.cons_append, List.cons.injEq] at hmore
            exact hother rest rfl (by rw [hmore.1])
      rw [List.cons_append, splitCrlf, ih]
      · rfl
      · exact fun more hc hmore => hother' hc more hmore

/-- A line is not split. -/
theorem splitCrlf_line {line : List Char} (h : ∀ c ∈ line, c ≠ '\r') : splitCrlf line = [line] := by
  induction line with
  | nil => rfl
  | cons c line ih =>
      have hc : c ≠ '\r' := h c List.mem_cons_self
      rw [splitCrlf, ih fun other hother => h other (List.mem_cons_of_mem _ hother)]
      exact fun _ hreturn => absurd hreturn hc

/-- The lines of a header block, with two empty ones at its end. -/
theorem splitCrlf_headerText {lines : List (List Char)} (h : ∀ line ∈ lines, IsLine line) :
    splitCrlf (headerText lines) = lines ++ [[], []] := by
  induction lines with
  | nil => rfl
  | cons line lines ih =>
      have hline := h line List.mem_cons_self
      have htext : headerText (line :: lines) = line ++ (crlf ++ headerText lines) := by
        rw [headerText, headerText, List.flatMap_cons, List.append_assoc, List.append_assoc]
      rw [htext, splitCrlf_break, splitCrlf_line fun c hc => (hline.2 c hc).1,
        ih fun other hother => h other (List.mem_cons_of_mem _ hother)]
      rfl

theorem eq_nil_of_splitCrlf {text : List Char} (h : splitCrlf text = [[]]) : text = [] := by
  fun_cases splitCrlf text with
  | case1 => rfl
  | case2 rest =>
      rw [splitCrlf] at h
      exact absurd (List.cons.inj h).2 (splitCrlf_ne_nil rest)
  | case3 c rest _ hnil => exact absurd hnil (splitCrlf_ne_nil rest)
  | case4 c rest hother line lines hcons =>
      rw [splitCrlf, hcons] at h
      · cases h
      · exact hother

/-- The only empty line of a header block is at its end. -/
theorem headerText_first {lines : List (List Char)} (h : ∀ line ∈ lines, IsLine line) {before after : List Char}
    (hsplit : headerText lines = before ++ (crlf ++ (crlf ++ after))) : after = [] := by
  have hlines := splitCrlf_headerText h
  have hempty : splitCrlf (crlf ++ after) = [] :: splitCrlf after := rfl
  rw [hsplit, splitCrlf_break, hempty] at hlines
  apply eq_nil_of_splitCrlf
  rcases List.append_eq_append_iff.mp hlines with ⟨more, hmore, hend⟩ | ⟨more, hmore, hend⟩
  · cases more with
    | nil => exact (List.cons.inj hend).2
    | cons line more =>
        obtain ⟨rfl, _⟩ := List.cons.inj hend
        have hmember : [] ∈ lines := by
          rw [hmore]
          exact List.mem_append_right _ List.mem_cons_self
        exact absurd rfl (h [] hmember).1
  · cases more with
    | nil => exact (List.cons.inj hend).2.symm
    | cons line more =>
        -- The empty line would be the second of the two at the end, with nothing behind it.
        have hlength := congrArg List.length hend
        have hpos := List.length_pos_of_ne_nil (splitCrlf_ne_nil after)
        simp only [List.length_cons, List.length_append, List.length_nil] at hlength
        omega

/-! ### A header block on the wire -/

/-- Text with a byte for each character. -/
def IsLatin1 (text : List Char) : Prop := ∀ c ∈ text, c.toNat < 256

theorem IsLatin1.append {first second : List Char} (h : IsLatin1 first) (h' : IsLatin1 second) :
    IsLatin1 (first ++ second) := by
  intro c hc
  rcases List.mem_append.mp hc with hc | hc
  · exact h c hc
  · exact h' c hc

theorem isLatin1_headerText {lines : List (List Char)} (h : ∀ line ∈ lines, IsLatin1 line) :
    IsLatin1 (headerText lines) := by
  have hcrlf : IsLatin1 crlf := forall_mem_of_all (by decide)
  apply IsLatin1.append ?_ hcrlf
  intro c hc
  obtain ⟨line, hline, hmember⟩ := List.mem_flatMap.mp hc
  exact (h line hline).append hcrlf c hmember

/-- The bytes of Latin-1 text. -/
def latin1Bytes (text : List Char) : Bytes := text.map fun c => UInt8.ofNat c.toNat

theorem latin1Encode_ok {text : List Char} (h : IsLatin1 text) : latin1Encode text = .ok (latin1Bytes text) := by
  have hall : (text.all fun c => c.toNat < 256) = true := by
    rw [List.all_eq_true]
    intro c hc
    exact decide_eq_true (h c hc)
  rw [latin1Encode, if_pos hall]
  rfl

theorem latin1Decode_latin1Bytes {text : List Char} (h : IsLatin1 text) :
    latin1Decode (latin1Bytes text) = text := by
  have hchar : ∀ c ∈ text, ((fun b : UInt8 => Char.ofNat b.toNat) ∘ fun c => UInt8.ofNat c.toNat) c = id c := by
    intro c hc
    have hvalue : (UInt8.ofNat c.toNat).toNat = c.toNat := by
      rw [UInt8.toNat_ofNat']
      exact Nat.mod_eq_of_lt (h c hc)
    rw [Function.comp_apply, hvalue, Char.ofNat_toNat]
    rfl
  rw [latin1Decode, latin1Bytes, List.map_map, List.map_congr_left hchar, List.map_id]

theorem latin1Decode_append (first second : Bytes) :
    latin1Decode (first ++ second) = latin1Decode first ++ latin1Decode second := List.map_append

/-- A header block ends with an empty line. -/
theorem headerText_ends {lines : List (List Char)} (hne : lines ≠ []) :
    ∃ before, headerText lines = before ++ (crlf ++ crlf) := by
  rcases List.eq_nil_or_concat lines with rfl | ⟨earlier, last, rfl⟩
  · exact absurd rfl hne
  · refine ⟨earlier.flatMap (· ++ crlf) ++ last, ?_⟩
    rw [headerText, List.concat_eq_append, List.flatMap_append, List.flatMap_singleton, List.append_assoc,
      List.append_assoc, List.append_assoc]

/-- Lines make up a header block. -/
theorem headerBlock_headerText {lines : List (List Char)} (hne : lines ≠ []) (h : ∀ line ∈ lines, IsLine line)
    (hlatin1 : IsLatin1 (headerText lines)) (hsize : (headerText lines).length ≤ maxHeaderBytes) :
    HeaderBlock (latin1Bytes (headerText lines)) where
  ends := by
    obtain ⟨before, hbefore⟩ := headerText_ends hne
    rw [hbefore, latin1Bytes, List.map_append]
    exact List.suffix_append _ _
  first := by
    rintro shorter ⟨after, hafter⟩ ⟨before, rfl⟩
    have htext := latin1Decode_latin1Bytes hlatin1
    rw [← hafter, List.append_assoc, latin1Decode_append, latin1Decode_append] at htext
    have hnone : latin1Decode after = [] := headerText_first h htext.symm
    rw [← hafter, List.map_eq_nil_iff.mp hnone, List.append_nil]
  size := by rwa [latin1Bytes, List.length_map]

/-! ### The header fields -/

/-- A header field on its line. -/
def fieldLine (name value : List Char) : List Char := name ++ ':' :: ' ' :: value

/-- A text that `strip` leaves as it is, also behind a space. -/
def Solid (text : List Char) : Prop := ∀ c ∈ text, isStrSpace c = false

theorem Solid.strip {text : List Char} (h : Solid text) : strip text = text := by
  have hfront : ∀ other : List Char, (∀ c ∈ other, isStrSpace c = false) → other.dropWhile isStrSpace = other := by
    intro other hother
    cases other with
    | nil => rfl
    | cons c other => exact List.dropWhile_cons_of_neg (by rw [hother c List.mem_cons_self]; decide)
  rw [Priestly.strip, hfront text h, hfront text.reverse fun c hc => h c (List.mem_reverse.mp hc),
    List.reverse_reverse]

theorem Solid.strip_space {text : List Char} (h : Solid text) : Priestly.strip (' ' :: text) = text := by
  have hspace : Priestly.strip (' ' :: text) = Priestly.strip text := by
    rw [Priestly.strip, Priestly.strip, List.dropWhile_cons_of_pos (by decide)]
  rw [hspace, h.strip]

/-- The name and the value of a field. -/
theorem headerOf_fieldLine {name value : List Char} (h : ∀ c ∈ name, c ≠ ':') :
    headerOf (fieldLine name value) = (lower (strip name), strip (' ' :: value)) := by
  have hname : (fieldLine name value).takeWhile (· ≠ ':') = name := by
    rw [fieldLine, List.takeWhile_append_of_pos fun c hc => decide_eq_true (h c hc)]
    rw [List.takeWhile_cons_of_neg (by decide), List.append_nil]
  have hvalue : (fieldLine name value).dropWhile (· ≠ ':') = ':' :: ' ' :: value := by
    rw [fieldLine, List.dropWhile_append_of_pos fun c hc => decide_eq_true (h c hc)]
    exact List.dropWhile_cons_of_neg (by decide)
  rw [headerOf, hname, hvalue]
  rfl

/-- Fields with different names are kept in their order. -/
theorem foldl_setHeader (lines : List (List Char)) (headers : Headers)
    (h : (headers ++ lines.map headerOf).map Prod.fst |>.Nodup) :
    lines.foldl (fun headers line => setHeader headers (headerOf line).1 (headerOf line).2) headers =
      headers ++ lines.map headerOf := by
  induction lines generalizing headers with
  | nil => exact (List.append_nil headers).symm
  | cons line lines ih =>
      have hnew : (headerOf line).1 ∉ headers.map Prod.fst := by
        rw [List.map_append, List.map_cons, List.map_cons] at h
        intro hmember
        exact (List.nodup_append.mp h).2.2 _ hmember _ List.mem_cons_self rfl
      rw [List.foldl_cons, setHeader, if_neg hnew, ih]
      · rw [List.append_assoc]
        rfl
      · rw [List.append_assoc]
        exact h

/-- The first line and the fields of a header block. -/
theorem parseHeaders_headerText {start : List Char} {lines : List (List Char)}
    (hstart : IsLine start) (h : ∀ line ∈ lines, IsLine line)
    (hnames : ((lines.map headerOf).map Prod.fst).Nodup) :
    parseHeaders (headerText (start :: lines)) = (start, lines.map headerOf) := by
  have hall : ∀ line ∈ start :: lines, IsLine line := by
    intro line hline
    rcases List.mem_cons.mp hline with rfl | hline
    · exact hstart
    · exact h line hline
  have hfilter : (lines ++ [[], []]).filter (· ≠ []) = lines := by
    rw [List.filter_append, List.filter_eq_self.mpr fun line hline => decide_eq_true (h line hline).1]
    exact List.append_nil lines
  rw [parseHeaders, splitCrlf_headerText hall]
  simp only [List.cons_append, List.headD_cons, List.tail_cons]
  rw [hfilter, foldl_setHeader lines [] hnames]
  rfl

/-! ### Base64 text -/

/-- The characters of base64 text. -/
theorem mem_b64encodeChars {data : Bytes} {c : Char} (h : c ∈ b64encodeChars data) :
    c = '=' ∨ ∃ sextet < 64, c = b64Char sextet := by
  fun_induction b64encodeChars data with
  | case1 => cases h
  | case2 a =>
      have ha : a.toNat < 256 := a.toNat_lt
      simp only [List.mem_cons, List.not_mem_nil, or_false] at h
      rcases h with rfl | rfl | rfl | rfl
      · exact .inr ⟨_, by omega, rfl⟩
      · exact .inr ⟨_, by omega, rfl⟩
      · exact .inl rfl
      · exact .inl rfl
  | case3 a b =>
      have ha : a.toNat < 256 := a.toNat_lt
      have hb : b.toNat < 256 := b.toNat_lt
      simp only [List.mem_cons, List.not_mem_nil, or_false] at h
      rcases h with rfl | rfl | rfl | rfl
      · exact .inr ⟨_, by omega, rfl⟩
      · exact .inr ⟨_, by omega, rfl⟩
      · exact .inr ⟨_, by omega, rfl⟩
      · exact .inl rfl
  | case4 a b c rest ih =>
      have ha : a.toNat < 256 := a.toNat_lt
      have hb : b.toNat < 256 := b.toNat_lt
      have hc : c.toNat < 256 := c.toNat_lt
      simp only [List.mem_cons] at h
      rcases h with rfl | rfl | rfl | rfl | h
      · exact .inr ⟨_, by omega, rfl⟩
      · exact .inr ⟨_, by omega, rfl⟩
      · exact .inr ⟨_, by omega, rfl⟩
      · exact .inr ⟨_, by omega, rfl⟩
      · exact ih h

/-- A character of base64 text is printable ASCII. -/
theorem b64_printable {data : Bytes} {c : Char} (h : c ∈ (b64encode data).toList) :
    c.toNat < 128 ∧ isStrSpace c = false ∧ c ≠ '\r' ∧ c ≠ '\n' := by
  rw [b64encode, String.toList_ofList] at h
  rcases mem_b64encodeChars h with rfl | ⟨sextet, hsextet, rfl⟩
  · decide
  · have hall : ∀ v : Fin 64, (b64Char v).toNat < 128 ∧ isStrSpace (b64Char v) = false ∧
        b64Char v ≠ '\r' ∧ b64Char v ≠ '\n' := by decide
    exact hall ⟨sextet, hsextet⟩

theorem length_b64encode (data : Bytes) : (b64encode data).toList.length = (data.length + 2) / 3 * 4 := by
  rw [b64encode, String.toList_ofList]
  fun_induction b64encodeChars data with
  | case1 => rfl
  | case2 a => simp only [List.length_cons, List.length_nil]
  | case3 a b => simp only [List.length_cons, List.length_nil]
  | case4 a b c rest ih =>
      simp only [List.length_cons, ih]
      omega

theorem b64_ne_nil {data : Bytes} (h : data ≠ []) : (b64encode data).toList ≠ [] := by
  have hpos := List.length_pos_of_ne_nil h
  apply List.ne_nil_of_length_pos
  rw [length_b64encode]
  omega

theorem solid_b64encode (data : Bytes) : Solid (b64encode data).toList := fun _ hc => (b64_printable hc).2.1

end Priestly
