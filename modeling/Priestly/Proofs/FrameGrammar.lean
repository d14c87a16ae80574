/-
Module: Priestly.Proofs.FrameGrammar
Layer: Proofs
Purpose: Which streams `read_frame` takes for what. A stream starts with a frame, is cut from one, or has
  two first bytes that no frame has; the three kinds exclude each other. The codec inverts itself where the
  reading process can hold the payload, and the frames that are accepted are those of RFC 6455 exactly on
  streams where the length has its shortest form.
Imports: Priestly.Proofs.Frames
Trusted boundary: none
Main exports: WireHeader.bytes_inj, StartsWith, CutFrom, stream_cases, frame_round_trip,
  WireFrame.Canonical, AcceptsExactly, Grammatical, accepts_exactly_iff
-/
import Priestly.Proofs.Frames

namespace Priestly

open ByteCodec

/-! ### Headers are a prefix code -/

/-- The seven bits of the second byte tell the form of the length. -/
theorem LengthForm.eq_of_code {form form' : LengthForm} {length length' : Nat} (h : form.Fits length)
    (h' : form'.Fits length') (hcode : form.code length = form'.code length') : form = form' := by
  have hshort : ∀ {length : Nat}, LengthForm.short.Fits length → length < 126 := fun hfits => hfits
  cases form with
  | short =>
      have := hshort h
      cases form' with
      | short => rfl
      | medium => exact absurd hcode (Nat.ne_of_lt this)
      | long => exact absurd hcode (Nat.ne_of_lt (Nat.lt_succ_of_lt this))
  | medium =>
      cases form' with
      | short => exact absurd hcode (Nat.ne_of_gt (hshort h'))
      | medium => rfl
      | long => cases hcode
  | long =>
      cases form' with
      | short => exact absurd hcode (Nat.ne_of_gt (Nat.lt_succ_of_lt (hshort h')))
      | medium => cases hcode
      | long => rfl

/-- The length is told by the seven bits and the bytes behind them. -/
theorem LengthForm.length_eq {form : LengthForm} {length length' : Nat} {more more' : Bytes}
    (h : form.Fits length) (h' : form.Fits length') (hcode : form.code length = form.code length')
    (hbytes : form.extension length ++ more = form.extension length' ++ more') :
    length = length' ∧ more = more' := by
  cases form with
  | short => exact ⟨hcode, hbytes⟩
  | medium =>
      obtain ⟨hextension, hmore⟩ := List.append_inj hbytes (by simp [LengthForm.extension])
      exact ⟨toBytesBE_injOn h h' hextension, hmore⟩
  | long =>
      obtain ⟨hextension, hmore⟩ := List.append_inj hbytes (by simp [LengthForm.extension])
      exact ⟨toBytesBE_injOn h h' hextension, hmore⟩

/-- A header is told by the bytes a stream starts with. -/
theorem WireHeader.bytes_inj {header header' : WireHeader} {more more' : Bytes}
    (h : header.bytes ++ more = header'.bytes ++ more') :
    header.length = header'.length ∧ header.form = header'.form ∧ more = more' := by
  rw [bytes, bytes, List.cons_append, List.cons_append, List.cons_append, List.cons_append] at h
  obtain ⟨_, h⟩ := List.cons.inj h
  obtain ⟨hsecond, h⟩ := List.cons.inj h
  obtain ⟨hmasked, hcode⟩ := secondByte_fields header.mask.isSome (LengthForm.code_lt header.fits)
  obtain ⟨hmasked', hcode'⟩ := secondByte_fields header'.mask.isSome (LengthForm.code_lt header'.fits)
  rw [hsecond] at hmasked hcode
  have hsame : header.form.code header.length = header'.form.code header'.length :=
    hcode.symm.trans hcode'
  have hform := LengthForm.eq_of_code header.fits header'.fits hsame
  rw [List.append_assoc, List.append_assoc, ← hform] at h
  obtain ⟨hlength, hrest⟩ :=
    LengthForm.length_eq header.fits (hform ▸ header'.fits) (hform ▸ hsame) h
  have hsome : header.mask.isSome = header'.mask.isSome := hmasked.symm.trans hmasked'
  have hkeys : header.keyBytes.length = header'.keyBytes.length := by
    rw [keyBytes, keyBytes]
    cases hmask : header.mask with
    | none =>
        rw [hmask, Option.isSome_none] at hsome
        rw [Option.isNone_iff_eq_none.mp (Option.isSome_eq_false_iff.mp hsome.symm)]
    | some key =>
        rw [hmask, Option.isSome_some] at hsome
        obtain ⟨key', hkey'⟩ := Option.isSome_iff_exists.mp hsome.symm
        rw [hkey']
        simp
  exact ⟨hlength, hform, (List.append_inj hrest hkeys).2⟩

/-- No frame is a proper prefix of another. -/
theorem WireFrame.bytes_inj {frame frame' : WireFrame} {more more' : Bytes}
    (h : frame.bytes ++ more = frame'.bytes ++ more') : more = more' := by
  rw [bytes, bytes, List.append_assoc, List.append_assoc] at h
  obtain ⟨hlength, _, hbody⟩ := WireHeader.bytes_inj h
  apply (List.append_inj hbody _).2
  rw [length_body, length_body, hlength]

/-! ### The kinds of streams -/

/-- The stream starts with a frame of a kind. -/
def StartsWith (p : WireFrame → Prop) (stream : Bytes) : Prop :=
  ∃ frame more, p frame ∧ stream = WireFrame.bytes frame ++ more

/-- The stream ends before a frame of a kind is complete. -/
def CutFrom (p : WireFrame → Prop) (stream : Bytes) : Prop :=
  ∃ frame missing, p frame ∧ missing ≠ [] ∧ WireFrame.bytes frame = stream ++ missing

/-- Any frame, whatever the form of its length. -/
def AnyFrame (_ : WireFrame) : Prop := True

/-- A stream that starts with a frame is not cut from one. -/
theorem not_cutFrom_of_startsWith {p q : WireFrame → Prop} {stream : Bytes} (h : StartsWith p stream) :
    ¬ CutFrom q stream := by
  rcases h with ⟨frame, more, _, rfl⟩
  rintro ⟨frame', missing, _, hne, hframe'⟩
  have hsame : frame.bytes ++ (more ++ missing) = frame'.bytes ++ [] := by
    rw [List.append_nil, hframe', List.append_assoc]
  exact hne (List.append_eq_nil_iff.mp (WireFrame.bytes_inj hsame)).2

/-- The first two bytes of a frame pass the checks. -/
theorem parseHeader_frame {frame : WireFrame} {b0 b1 : UInt8} {rest more : Bytes}
    (h : b0 :: b1 :: rest = frame.bytes ++ more) : ∃ found, parseHeader b0 b1 = .ok found := by
  rw [WireFrame.bytes, WireHeader.bytes] at h
  simp only [List.cons_append] at h
  obtain ⟨hfirst, h⟩ := List.cons.inj h
  obtain ⟨hsecond, _⟩ := List.cons.inj h
  rw [hfirst, hsecond]
  exact ⟨_, parseHeader_wire frame.header⟩

/-- So do those of a stream that is cut from a frame. -/
theorem parseHeader_of_cutFrom {p : WireFrame → Prop} {b0 b1 : UInt8} {rest : Bytes}
    (h : CutFrom p (b0 :: b1 :: rest)) : ∃ found, parseHeader b0 b1 = .ok found := by
  rcases h with ⟨frame, missing, _, _, hframe⟩
  have hprefix : b0 :: b1 :: (rest ++ missing) = frame.bytes ++ [] := by
    rw [List.append_nil, hframe, List.cons_append, List.cons_append]
  exact parseHeader_frame hprefix

/-- How many bytes of the length stand behind the second byte. -/
def extensionSize (code : Nat) : Nat := if code = 126 then 2 else if code = 127 then 8 else 0

/-- So many bytes are a length in the form that the second byte announces. -/
theorem exists_length {code : Nat} (hcode : code < 128) {bytes : Bytes}
    (hbytes : bytes.length = extensionSize code) :
    ∃ form length, code = LengthForm.code form length ∧ form.Fits length ∧
      (code < 126 → form = .short) ∧ bytes = form.extension length := by
  have hback := toBytesBE_ofBytesBE bytes
  have hfits := ofBytesBE_lt bytes
  rw [extensionSize] at hbytes
  by_cases hmedium : code = 126
  · rw [if_pos hmedium] at hbytes
    rw [hbytes] at hback hfits
    exact ⟨.medium, ofBytesBE bytes, hmedium, hfits, by omega, hback.symm⟩
  · by_cases hlong : code = 127
    · rw [if_neg hmedium, if_pos hlong] at hbytes
      rw [hbytes] at hback hfits
      exact ⟨.long, ofBytesBE bytes, hlong, hfits, by omega, hback.symm⟩
    · rw [if_neg hmedium, if_neg hlong] at hbytes
      have hshort : code < 126 := by omega
      exact ⟨.short, code, rfl, hshort, fun _ => rfl, List.length_eq_zero_iff.mp hbytes⟩

/-- Four bytes are a masking key, where there is one. -/
theorem exists_mask {masked : Bool} {bytes : Bytes} (hbytes : bytes.length = if masked then 4 else 0) :
    ∃ mask : Option MaskingKey, mask.isSome = masked ∧ (mask.map Vector.toList).getD [] = bytes := by
  cases masked with
  | false => exact ⟨none, rfl, (List.length_eq_zero_iff.mp hbytes).symm⟩
  | true => exact ⟨some ⟨bytes.toArray, hbytes⟩, rfl, by simp [Vector.toList]⟩

/-- Two first bytes that pass the checks, with as many bytes behind them as they announce, are a
header. -/
theorem exists_header {b0 b1 : UInt8} {found : FrameHeader} (hfound : parseHeader b0 b1 = .ok found)
    {tail : Bytes}
    (htail : tail.length = extensionSize found.length + if found.masked then 4 else 0) :
    ∃ header : WireHeader, header.bytes = b0 :: b1 :: tail := by
  obtain ⟨rfl, rfl, hcode, hcontrol⟩ := parseHeader_ok hfound
  have hextension : (tail.take (extensionSize found.length)).length = extensionSize found.length := by
    rw [List.length_take]
    omega
  have hkey : (tail.drop (extensionSize found.length)).length = if found.masked then 4 else 0 := by
    rw [List.length_drop]
    omega
  obtain ⟨form, length, hform, hfits, hshort, hlength⟩ := exists_length hcode hextension
  obtain ⟨mask, hmasked, hmask⟩ := exists_mask hkey
  exists {
    fin := found.fin
    opcode := found.opcode
    form := form
    length := length
    mask := mask
    fits := hfits
    control := fun h => ⟨(hcontrol h).1, hshort (hcontrol h).2⟩ }
  rw [WireHeader.bytes, WireHeader.keyBytes]
  simp only
  rw [hmask, ← hlength, hmasked, ← hform, List.take_append_drop]

/-- A stream with a header starts with a frame or is cut from one. -/
theorem startsWith_or_cutFrom {stream : Bytes} {header : WireHeader} {more : Bytes}
    (h : stream = header.bytes ++ more) : StartsWith AnyFrame stream ∨ CutFrom AnyFrame stream := by
  by_cases hshort : more.length < header.length
  · right
    have hlen : (more ++ List.replicate (header.length - more.length) 0).length = header.length := by
      rw [List.length_append, List.length_replicate]
      omega
    obtain ⟨frame, hheader, hbody⟩ := exists_frame header hlen
    refine ⟨frame, List.replicate (header.length - more.length) 0, trivial, ?_, ?_⟩
    · rw [Ne, List.replicate_eq_nil_iff]
      omega
    · rw [WireFrame.bytes, hheader, hbody, h, List.append_assoc]
  · left
    have hlen : (more.take header.length).length = header.length := by
      rw [List.length_take]
      omega
    obtain ⟨frame, hheader, hbody⟩ := exists_frame header hlen
    refine ⟨frame, more.drop header.length, trivial, ?_⟩
    rw [WireFrame.bytes, hheader, hbody, h, List.append_assoc, List.take_append_drop]

/-- Every stream starts with a frame, ends too early, or has two first bytes that no frame has. -/
theorem stream_cases (stream : Bytes) :
    StartsWith AnyFrame stream ∨ (stream.length < 2 ∨ CutFrom AnyFrame stream) ∨
      ∃ b0 b1 rest text, stream = b0 :: b1 :: rest ∧ parseHeader b0 b1 = .error (.protocolError text) := by
  rcases stream with _ | ⟨b0, _ | ⟨b1, tail⟩⟩
  · exact .inr (.inl (.inl Nat.two_pos))
  · exact .inr (.inl (.inl Nat.one_lt_two))
  · cases hfound : parseHeader b0 b1 with
    | error exn =>
        obtain ⟨text, rfl⟩ := parseHeader_error hfound
        exact .inr (.inr ⟨b0, b1, tail, text, rfl, hfound⟩)
    | ok found =>
        -- Zeros in the place of what is missing make up a header.
        let size := extensionSize found.length + if found.masked then 4 else 0
        by_cases hshort : tail.length < size
        · right
          left
          right
          have hlen : (tail ++ List.replicate (size - tail.length) 0).length = size := by
            rw [List.length_append, List.length_replicate]
            omega
          obtain ⟨header, hheader⟩ := exists_header hfound hlen
          obtain ⟨frame, hframe, hbody⟩ := exists_frame header (List.length_replicate (n := header.length) (a := 0))
          refine ⟨frame, List.replicate (size - tail.length) 0 ++ frame.body, trivial, ?_, ?_⟩
          · apply List.append_ne_nil_of_left_ne_nil
            rw [Ne, List.replicate_eq_nil_iff]
            omega
          · rw [WireFrame.bytes, hframe, hheader]
            simp
        · have hlen : (tail.take size).length = size := by
            rw [List.length_take]
            omega
          obtain ⟨header, hheader⟩ := exists_header hfound hlen
          have hstream : b0 :: b1 :: tail = header.bytes ++ tail.drop size := by
            rw [hheader, List.cons_append, List.cons_append, List.take_append_drop]
          rcases startsWith_or_cutFrom hstream with hstarts | hcut
          · exact .inl hstarts
          · exact .inr (.inl (.inr hcut))

/-! ### What read_frame does with each kind -/

section Outcomes

variable {sock : Socket}

/-- No header at the front of the stream announces more than the process can hold. -/
def Served (memory : Memory) (stream : Bytes) : Prop :=
  ∀ header more, stream = WireHeader.bytes header ++ more → header.length ≤ memory.largest

/-- A frame at the front of the stream is returned. -/
theorem readFrame_startsWith {frame : WireFrame} {more : Bytes} (hserved : Served sock.memory sock.rest)
    (h : sock.rest = frame.bytes ++ more) :
    ∃ sock', readFrame sock = .ok frame.content sock' ∧ sock.Left sock' more := by
  apply readFrame_frame h
  rw [frame.complete]
  apply hserved frame.header (frame.body ++ more)
  rw [h, WireFrame.bytes, List.append_assoc]

/-- Two first bytes that fail the checks are refused. -/
theorem readFrame_refused {b0 b1 : UInt8} {rest : Bytes} {text : String} (h : sock.rest = b0 :: b1 :: rest)
    (hcheck : parseHeader b0 b1 = .error (.protocolError text)) :
    ∃ sock', readFrame sock = .error (.protocolError text) sock' := by
  have hrest : sock.rest = [b0, b1] ++ rest := h
  obtain ⟨sock', hread, _⟩ :=
    Socket.recvExact_ok hrest (Nat.le_trans (by simp) sock.memory.eight_le_largest)
  exists sock'
  rw [readFrame]
  refine (StateExcept.bind_ok hread).trans ?_
  simp only [List.getD_cons_zero, List.getD_cons_succ, hcheck]
  rfl

/-- Reading bytes raises no `ProtocolError`. -/
theorem recvExact_ne_refused {n : Nat} {text : String} {sock' : Socket} :
    Socket.recvExact n sock ≠ .error (.protocolError text) sock' := by
  intro h
  by_cases hmax : n ≤ sock.memory.largest
  · rcases recvExact_cases sock n hmax with ⟨_, _, _, _, _, hread, _⟩ | ⟨_, _, hread, _⟩
    · cases hread.symm.trans h
    · cases hread.symm.trans h
  · have hrefused := (Socket.recvExact_refused (Nat.lt_of_not_le hmax)).symm.trans h
    exact Memory.refusal_ne_protocolError _ _ (EStateM.Result.error.inj hrefused).1

/-- Reading a length raises none either. -/
theorem readLength_ne_refused {code : Nat} {text : String} {sock' : Socket} :
    readLength code sock ≠ .error (.protocolError text) sock' := by
  intro h
  have hbytes : ∀ n, (do return ofBytesBE (← Socket.recvExact n) : SocketM Nat) sock ≠
      .error (.protocolError text) sock' := by
    intro n hread
    rcases StateExcept.bind_eq_error hread with hexact | ⟨_, _, _, hreturn⟩
    · exact recvExact_ne_refused hexact
    · cases hreturn
  rw [readLength] at h
  by_cases hmedium : code = 126
  · rw [if_pos hmedium] at h
    exact hbytes 2 h
  · by_cases hlong : code = 127
    · rw [if_neg hmedium, if_pos hlong] at h
      exact hbytes 8 h
    · rw [if_neg hmedium, if_neg hlong] at h
      cases h

/-- Only two first bytes that fail the checks are refused. -/
theorem parseHeader_of_refused {text : String} {sock' : Socket}
    (h : readFrame sock = .error (.protocolError text) sock') :
    ∃ b0 b1 rest, sock.rest = b0 :: b1 :: rest ∧ parseHeader b0 b1 = .error (.protocolError text) := by
  rcases recvExact_cases sock 2 (Nat.le_trans (by decide) sock.memory.eight_le_largest) with
    ⟨head, more, sock₁, hrest, hlen, hread, _⟩ | ⟨_, _, hread, _⟩
  · obtain ⟨b0, b1, rfl⟩ := List.length_eq_two.mp hlen
    rw [readFrame, StateExcept.bind_ok hread] at h
    simp only [List.getD_cons_zero, List.getD_cons_succ] at h
    cases hcheck : parseHeader b0 b1 with
    | error exn =>
        rw [hcheck] at h
        cases h
        exact ⟨b0, b1, more, hrest, hcheck⟩
    | ok found =>
        rw [hcheck] at h
        rcases StateExcept.bind_eq_error h with hlength | ⟨length, _, _, h⟩
        · exact absurd hlength readLength_ne_refused
        · rcases StateExcept.bind_eq_error h with hkey | ⟨key, _, _, h⟩
          · rw [readMaskingKey] at hkey
            cases hmasked : found.masked with
            | true =>
                rw [hmasked, if_pos rfl] at hkey
                exact absurd hkey recvExact_ne_refused
            | false =>
                rw [hmasked] at hkey
                cases hkey
          · rcases StateExcept.bind_eq_error h with hpayload | ⟨_, _, _, h⟩
            · exact absurd hpayload recvExact_ne_refused
            · cases h
  · rw [readFrame, StateExcept.bind_error hread] at h
    cases h

/-- A stream that ends too early is a closed connection. -/
theorem readFrame_cut (hserved : Served sock.memory sock.rest)
    (h : sock.rest.length < 2 ∨ CutFrom AnyFrame sock.rest) :
    ∃ reason sock', readFrame sock = .error (.connectionClosed none reason) sock' := by
  have hnot : ∀ {frame : WireFrame} {more : Bytes}, sock.rest ≠ frame.bytes ++ more := by
    intro frame more hstream
    rcases h with hshort | hcut
    · rw [hstream, WireFrame.bytes, WireHeader.bytes] at hshort
      simp only [List.cons_append, List.length_cons] at hshort
      omega
    · have hstarts : StartsWith AnyFrame sock.rest := ⟨frame, more, trivial, hstream⟩
      exact not_cutFrom_of_startsWith hstarts hcut
  have hresult := readFrame_cases sock
  generalize hread : readFrame sock = result at hresult
  cases hresult with
  | frame stream served left => exact absurd stream hnot
  | oversized stream large left => exact absurd (hserved _ _ stream) (Nat.not_le.mpr large)
  | ended left => exact ⟨_, _, rfl⟩
  | malformed left =>
      obtain ⟨b0, b1, rest, hrest, hcheck⟩ := parseHeader_of_refused hread
      rw [hrest] at h
      rcases h with hshort | hcut
      · simp only [List.length_cons] at hshort
        omega
      · obtain ⟨found, hfound⟩ := parseHeader_of_cutFrom hcut
        cases hfound.symm.trans hcheck

end Outcomes

/-! ### The round trip -/

/-- Whatever is encoded is read back, with what follows left unread, however the stream is cut into pieces,
by every process that can hold the payload. -/
theorem frame_round_trip (opcode : Opcode) (payload : Bytes) (mask : Option MaskingKey)
    (size : payload.length < 2 ^ 64) (control : opcode.isControl = true → payload.length ≤ 125) :
    ∃ bytes, encodeFrame opcode payload mask = .ok bytes ∧
      ∀ (rest : Bytes) (sock : Socket), sock.rest = bytes ++ rest → payload.length ≤ sock.memory.largest →
        ∃ sock', readFrame sock = .ok { fin := true, opcode, payload } sock' ∧ sock'.rest = rest := by
  have hcontrol : opcode.isControl = true → payload.length < 126 := fun h =>
    Nat.lt_succ_of_le (control h)
  refine ⟨_, encodeFrame_wire mask size hcontrol, ?_⟩
  intro rest sock hrest hheld
  obtain ⟨sock', hread, hleft⟩ := readFrame_frame hrest hheld
  exact ⟨sock', hread, hleft.rest⟩

/-- A masked text frame of two letters, behind which nothing comes. -/
theorem frame_round_trip_hi : ∃ bytes,
    encodeFrame .text [104, 105] (some (Vector.replicate 4 7)) = .ok bytes ∧
      ∀ sock : Socket, sock.rest = bytes ++ [] → 2 ≤ sock.memory.largest →
        ∃ sock', readFrame sock = .ok { fin := true, opcode := .text, payload := [104, 105] } sock' ∧
          sock'.rest = [] := by
  obtain ⟨bytes, hbytes, hread⟩ := frame_round_trip .text [104, 105] (some (Vector.replicate 4 7))
    (by decide) (by decide)
  exact ⟨bytes, hbytes, hread []⟩

/-- A socket on which the bytes arrive in one piece. -/
def Socket.arriving (memory : Memory) (bytes : Bytes) : Socket where
  memory := memory
  pieces := Piece.ofList bytes
  ending := none
  faults := []
  written := []

@[simp] theorem Socket.rest_arriving (memory : Memory) (bytes : Bytes) :
    (Socket.arriving memory bytes).rest = bytes := Piece.flat_ofList bytes

/-! ### The frames that are accepted -/

/-- A frame as RFC 6455 wants it: its length has the shortest form, and the top bit of a length of 64 bits
is clear. The header already has zero reserved bits, a known opcode, and the form of a control frame. -/
def WireFrame.Canonical (frame : WireFrame) : Prop :=
  frame.header.form = .minimal frame.header.length ∧ frame.header.length < 2 ^ 63

/-- `read_frame` accepts exactly the frames of RFC 6455: it returns when the stream starts with one, and
then its content; it says that the connection is closed when the stream is cut from one; and every other
stream is a violation of the protocol. -/
structure AcceptsExactly (sock : Socket) : Prop where
  returns : (∃ frame sock', readFrame sock = .ok frame sock') ↔ StartsWith WireFrame.Canonical sock.rest
  content : ∀ frame more, WireFrame.Canonical frame → sock.rest = frame.bytes ++ more →
    ∃ sock', readFrame sock = .ok frame.content sock' ∧ sock'.rest = more
  closed : (∃ code reason sock', readFrame sock = .error (.connectionClosed code reason) sock') ↔
    CutFrom WireFrame.Canonical sock.rest
  refused : (∃ text sock', readFrame sock = .error (.protocolError text) sock') ↔
    ¬ StartsWith WireFrame.Canonical sock.rest ∧ ¬ CutFrom WireFrame.Canonical sock.rest

/-- The stream keeps to the grammar where `read_frame` does not look: no header announces more than the
process can hold, a frame at its front is canonical, and where it ends too early it can be continued to a
canonical frame. -/
structure Grammatical (memory : Memory) (stream : Bytes) : Prop where
  served : Served memory stream
  frame : StartsWith AnyFrame stream → StartsWith WireFrame.Canonical stream
  cut : stream.length < 2 ∨ CutFrom AnyFrame stream → CutFrom WireFrame.Canonical stream

section Accepts

variable {sock : Socket}

/-- Exactness leaves no room for an `OverflowError` or a `MemoryError`. -/
theorem AcceptsExactly.served (h : AcceptsExactly sock) : Served sock.memory sock.rest := by
  intro header more hrest
  by_contra hlarge
  obtain ⟨sock', hfail⟩ := readFrame_oversized hrest (Nat.lt_of_not_le hlarge)
  have hnot : ¬ StartsWith WireFrame.Canonical sock.rest := by
    intro hstarts
    obtain ⟨frame, sock'', hread⟩ := h.returns.mpr hstarts
    cases hread.symm.trans hfail
  have hopen : ¬ CutFrom WireFrame.Canonical sock.rest := by
    intro hcut
    obtain ⟨code, reason, sock'', hread⟩ := h.closed.mpr hcut
    exact Memory.refusal_ne_connectionClosed _ _ _ (EStateM.Result.error.inj (hfail.symm.trans hread)).1
  obtain ⟨text, sock'', hread⟩ := h.refused.mpr ⟨hnot, hopen⟩
  exact Memory.refusal_ne_protocolError _ _ (EStateM.Result.error.inj (hfail.symm.trans hread)).1

/-- What exactness asks of the stream. -/
theorem AcceptsExactly.grammatical (h : AcceptsExactly sock) : Grammatical sock.memory sock.rest where
  served := h.served
  frame := by
    rintro ⟨frame, more, _, hrest⟩
    obtain ⟨sock', hread, _⟩ := readFrame_startsWith h.served hrest
    exact h.returns.mp ⟨_, _, hread⟩
  cut := by
    intro hcut
    obtain ⟨reason, sock', hread⟩ := readFrame_cut h.served hcut
    exact h.closed.mp ⟨_, _, _, hread⟩

/-- On a grammatical stream that starts with a frame. -/
theorem acceptsExactly_of_startsWith (hgrammar : Grammatical sock.memory sock.rest)
    (h : StartsWith AnyFrame sock.rest) : AcceptsExactly sock := by
  have hcanonical := hgrammar.frame h
  have hopen : ¬ CutFrom WireFrame.Canonical sock.rest := not_cutFrom_of_startsWith h
  rcases h with ⟨frame, more, _, hrest⟩
  obtain ⟨sock', hread, _⟩ := readFrame_startsWith hgrammar.served hrest
  constructor
  · exact iff_of_true ⟨_, _, hread⟩ hcanonical
  · intro frame' more' _ hrest'
    obtain ⟨sock'', hread', hleft'⟩ := readFrame_startsWith hgrammar.served hrest'
    exact ⟨sock'', hread', hleft'.rest⟩
  · apply iff_of_false _ hopen
    rintro ⟨code, reason, sock'', hclosed⟩
    cases hread.symm.trans hclosed
  · apply iff_of_false
    · rintro ⟨text, sock'', hrefused⟩
      cases hread.symm.trans hrefused
    · rintro ⟨hnot, _⟩
      exact hnot hcanonical

/-- On a stream that does not start with a frame nothing is returned, so the content is as it should
be. -/
theorem not_startsWith_of_error {exn : TransportExn} {sock' : Socket}
    (hserved : Served sock.memory sock.rest) (h : readFrame sock = .error exn sock') :
    ¬ StartsWith WireFrame.Canonical sock.rest := by
  rintro ⟨frame, more, _, hrest⟩
  obtain ⟨sock'', hread, _⟩ := readFrame_startsWith hserved hrest
  cases hread.symm.trans h

/-- On a grammatical stream that ends too early. -/
theorem acceptsExactly_of_cut (hgrammar : Grammatical sock.memory sock.rest)
    (h : sock.rest.length < 2 ∨ CutFrom AnyFrame sock.rest) : AcceptsExactly sock := by
  have hcut := hgrammar.cut h
  obtain ⟨reason, sock', hread⟩ := readFrame_cut hgrammar.served h
  have hnot := not_startsWith_of_error hgrammar.served hread
  constructor
  · apply iff_of_false _ hnot
    rintro ⟨frame, sock'', hok⟩
    cases hread.symm.trans hok
  · intro frame more hcanonical hrest
    exact absurd ⟨frame, more, hcanonical, hrest⟩ hnot
  · exact iff_of_true ⟨_, _, _, hread⟩ hcut
  · apply iff_of_false
    · rintro ⟨text, sock'', hrefused⟩
      cases hread.symm.trans hrefused
    · rintro ⟨_, hopen⟩
      exact hopen hcut

/-- On a grammatical stream whose first two bytes fail the checks. -/
theorem acceptsExactly_of_refused (hgrammar : Grammatical sock.memory sock.rest) {b0 b1 : UInt8}
    {rest : Bytes} {text : String} (hrest : sock.rest = b0 :: b1 :: rest)
    (hcheck : parseHeader b0 b1 = .error (.protocolError text)) : AcceptsExactly sock := by
  obtain ⟨sock', hread⟩ := readFrame_refused hrest hcheck
  have hnot := not_startsWith_of_error hgrammar.served hread
  have hopen : ¬ CutFrom WireFrame.Canonical sock.rest := by
    rw [hrest]
    intro hcut
    obtain ⟨found, hfound⟩ := parseHeader_of_cutFrom hcut
    cases hfound.symm.trans hcheck
  constructor
  · apply iff_of_false _ hnot
    rintro ⟨frame, sock'', hok⟩
    cases hread.symm.trans hok
  · intro frame more hcanonical hstream
    exact absurd ⟨frame, more, hcanonical, hstream⟩ hnot
  · apply iff_of_false _ hopen
    rintro ⟨code, reason, sock'', hclosed⟩
    cases hread.symm.trans hclosed
  · exact iff_of_true ⟨_, _, hread⟩ ⟨hnot, hopen⟩

end Accepts

/-- For every socket, however the stream is cut into pieces and whatever it holds, `read_frame` accepts
exactly the frames of RFC 6455 if and only if the stream is grammatical. -/
theorem accepts_exactly_iff (sock : Socket) : AcceptsExactly sock ↔ Grammatical sock.memory sock.rest := by
  constructor
  · exact AcceptsExactly.grammatical
  · intro hgrammar
    rcases stream_cases sock.rest with hstarts | hcut | ⟨b0, b1, rest, text, hrest, hcheck⟩
    · exact acceptsExactly_of_startsWith hgrammar hstarts
    · exact acceptsExactly_of_cut hgrammar hcut
    · exact acceptsExactly_of_refused hgrammar hrest hcheck

/-- A binary frame whose length of one is written in sixteen bits. -/
def paddedLength : WireFrame where
  header := {
    fin := true
    opcode := .binary
    form := .medium
    length := 1
    mask := none
    fits := by decide
    control := nofun }
  payload := [65]
  complete := rfl

/-- The frame is not canonical, and is returned. -/
theorem padded_length_accepted :
    (∃ sock', readFrame (.arriving .gibibyte [0x82, 126, 0, 1, 65]) = .ok paddedLength.content sock') ∧
      ¬ StartsWith WireFrame.Canonical [0x82, 126, 0, 1, 65] ∧
      ¬ AcceptsExactly (.arriving .gibibyte [0x82, 126, 0, 1, 65]) := by
  have hstream : ([0x82, 126, 0, 1, 65] : Bytes) = paddedLength.bytes ++ [] := by decide
  have hrest : (Socket.arriving .gibibyte [0x82, 126, 0, 1, 65]).rest = paddedLength.bytes ++ [] := by
    rw [Socket.rest_arriving, hstream]
  obtain ⟨sock', hread, _⟩ := readFrame_frame hrest (by decide)
  have hnot : ¬ StartsWith WireFrame.Canonical [0x82, 126, 0, 1, 65] := by
    rintro ⟨frame, more, ⟨hform, _⟩, hframe⟩
    rw [hstream, WireFrame.bytes, WireFrame.bytes, List.append_assoc, List.append_assoc] at hframe
    obtain ⟨hlength, hsame, _⟩ := WireHeader.bytes_inj hframe
    rw [← hsame, ← hlength] at hform
    cases hform
  refine ⟨⟨sock', hread⟩, hnot, ?_⟩
  intro hexact
  apply hnot
  rw [← Socket.rest_arriving .gibibyte [0x82, 126, 0, 1, 65]]
  exact hexact.returns.mp ⟨_, _, hread⟩

end Priestly
