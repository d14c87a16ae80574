/-
Module: Priestly.Proofs.Frames
Layer: Proofs
Purpose: What `read_frame` does with the bytes that come next: it returns the content of a complete frame,
  and raises on everything else.
Imports: Priestly.Proofs.SocketReads, Priestly.Transport.WireFrame
Trusted boundary: none
Main exports: parseHeader_wire, parseHeader_ok, readFrame_frame, readFrame_cases
-/
import Priestly.Proofs.SocketReads
import Priestly.Transport.WireFrame

namespace Priestly

open ByteCodec

/-! ### The first two bytes -/

/-- What the checks find in a first byte. -/
theorem firstByte_fields (fin : Bool) (opcode : Opcode) :
    decide (firstByte fin opcode &&& 0x80 ≠ 0) = fin ∧ firstByte fin opcode &&& 0x70 = 0 ∧
      Opcode.ofCode? (firstByte fin opcode &&& 0x0F) = some opcode := by
  cases fin <;> cases opcode <;> decide

/-- A first byte without reserved bits and with a known opcode is put together from its fields. -/
theorem eq_firstByte {b0 : UInt8} {opcode : Opcode} (hreserved : b0 &&& 0x70 = 0)
    (hopcode : Opcode.ofCode? (b0 &&& 0x0F) = some opcode) :
    b0 = firstByte (decide (b0 &&& 0x80 ≠ 0)) opcode := by
  have all : ∀ n : Fin 256, UInt8.ofFin n &&& 0x70 = 0 →
      ∀ opcode ∈ Opcode.valid, Opcode.ofCode? (UInt8.ofFin n &&& 0x0F) = some opcode →
        UInt8.ofFin n = firstByte (decide (UInt8.ofFin n &&& 0x80 ≠ 0)) opcode := by
    decide +kernel
  exact all b0.toFin hreserved opcode (by cases opcode <;> decide) hopcode

/-- What the checks find in a second byte. -/
theorem secondByte_fields (masked : Bool) {length : Nat} (h : length < 128) :
    decide (secondByte masked length &&& 0x80 ≠ 0) = masked ∧
      (secondByte masked length &&& 0x7F).toNat = length := by
  have all : ∀ masked : Bool, ∀ n : Fin 128,
      decide (secondByte masked n.val &&& 0x80 ≠ 0) = masked ∧
        (secondByte masked n.val &&& 0x7F).toNat = n.val := by
    decide +kernel
  exact all masked ⟨length, h⟩

/-- A second byte is put together from its fields. -/
theorem eq_secondByte (b1 : UInt8) :
    b1 = secondByte (decide (b1 &&& 0x80 ≠ 0)) (b1 &&& 0x7F).toNat ∧ (b1 &&& 0x7F).toNat < 128 := by
  have all : ∀ n : Fin 256,
      UInt8.ofFin n = secondByte (decide (UInt8.ofFin n &&& 0x80 ≠ 0)) (UInt8.ofFin n &&& 0x7F).toNat ∧
        (UInt8.ofFin n &&& 0x7F).toNat < 128 := by
    decide +kernel
  exact all b1.toFin

/-- A form of the length that fits is told by seven bits. -/
theorem LengthForm.code_lt {form : LengthForm} {length : Nat} (h : form.Fits length) :
    form.code length < 128 := by
  cases form with
  | short => exact Nat.lt_trans h (by decide)
  | medium => exact (by decide : 126 < 128)
  | long => exact (by decide : 127 < 128)

/-- The checks pass a header of RFC 6455. -/
theorem parseHeader_wire (header : WireHeader) :
    parseHeader (firstByte header.fin header.opcode)
      (secondByte header.mask.isSome (header.form.code header.length)) =
      .ok {
        fin := header.fin
        opcode := header.opcode
        masked := header.mask.isSome
        length := header.form.code header.length } := by
  obtain ⟨hfin, hreserved, hopcode⟩ := firstByte_fields header.fin header.opcode
  obtain ⟨hmasked, hlength⟩ := secondByte_fields header.mask.isSome (LengthForm.code_lt header.fits)
  have hfinal : ¬ (header.opcode.isControl = true ∧ header.fin = false) := by
    intro hboth
    rw [(header.control hboth.1).1] at hboth
    cases hboth.2
  have hshort : ¬ (header.opcode.isControl = true ∧ header.form.code header.length > 125) := by
    intro hboth
    have hfits := header.fits
    rw [(header.control hboth.1).2] at hfits hboth
    exact absurd hfits (Nat.not_lt.mpr hboth.2)
  simp only [parseHeader, hfin, hreserved, hopcode, hmasked, hlength, if_neg hfinal, if_neg hshort,
    ne_eq, not_true_eq_false, if_false]

/-- What the checks pass. -/
theorem parseHeader_ok {b0 b1 : UInt8} {found : FrameHeader} (h : parseHeader b0 b1 = .ok found) :
    b0 = firstByte found.fin found.opcode ∧ b1 = secondByte found.masked found.length ∧
      found.length < 128 ∧ (found.opcode.isControl = true → found.fin = true ∧ found.length < 126) := by
  rw [parseHeader] at h
  by_cases hreserved : b0 &&& 0x70 = 0
  · rw [if_neg (not_not.mpr hreserved)] at h
    cases hopcode : Opcode.ofCode? (b0 &&& 0x0F) with
    | none =>
        rw [hopcode] at h
        cases h
    | some opcode =>
        rw [hopcode] at h
        by_cases hfinal : opcode.isControl = true ∧ decide (b0 &&& 0x80 ≠ 0) = false
        · simp only [if_pos hfinal] at h
          cases h
        · by_cases hshort : opcode.isControl = true ∧ (b1 &&& 0x7F).toNat > 125
          · simp only [if_neg hfinal, if_pos hshort] at h
            cases h
          · simp only [if_neg hfinal, if_neg hshort] at h
            cases h
            refine ⟨eq_firstByte hreserved hopcode, (eq_secondByte b1).1, (eq_secondByte b1).2, ?_⟩
            intro hcontrol
            constructor
            · exact Bool.eq_true_of_not_eq_false fun hfin => hfinal ⟨hcontrol, hfin⟩
            · exact Nat.lt_of_not_le fun hlong => hshort ⟨hcontrol, hlong⟩
  · rw [if_pos hreserved] at h
    cases h

/-- The checks refuse a header with a `ProtocolError`. -/
theorem parseHeader_error {b0 b1 : UInt8} {exn : TransportExn} (h : parseHeader b0 b1 = .error exn) :
    ∃ text, exn = .protocolError text := by
  rw [parseHeader] at h
  split at h
  · cases h
    exact ⟨_, rfl⟩
  · split at h
    · cases h
      exact ⟨_, rfl⟩
    · simp only at h
      split at h
      · cases h
        exact ⟨_, rfl⟩
      · split at h
        · cases h
          exact ⟨_, rfl⟩
        · cases h

/-! ### The length and the masking key -/

/-- The length of a payload is read in each of its forms. -/
theorem readLength_wire {sock : Socket} {form : LengthForm} {length : Nat} {more : Bytes}
    (hfits : form.Fits length) (hrest : sock.rest = form.extension length ++ more) :
    ∃ sock', readLength (form.code length) sock = .ok length sock' ∧ sock.Left sock' more := by
  have hsize := sock.memory.eight_le_largest
  cases form with
  | short =>
      have hlength : length < 126 := hfits
      refine ⟨sock, ?_, rfl, rfl, rfl, rfl, hrest⟩
      rw [LengthForm.code, readLength, if_neg (by omega), if_neg (by omega)]
      rfl
  | medium =>
      have hlen : (toBytesBE 2 length).length = 2 := length_toBytesBE 2 length
      obtain ⟨sock', hread, hleft⟩ := Socket.recvExact_ok hrest
        (by rw [LengthForm.extension, hlen]; omega)
      rw [LengthForm.extension, hlen] at hread
      refine ⟨sock', ?_, hleft⟩
      rw [LengthForm.code, readLength, if_pos rfl, StateExcept.bind_ok hread,
        ofBytesBE_toBytesBE_of_lt hfits]
      rfl
  | long =>
      have hlen : (toBytesBE 8 length).length = 8 := length_toBytesBE 8 length
      obtain ⟨sock', hread, hleft⟩ := Socket.recvExact_ok hrest
        (by rw [LengthForm.extension, hlen]; omega)
      rw [LengthForm.extension, hlen] at hread
      refine ⟨sock', ?_, hleft⟩
      rw [LengthForm.code, readLength, if_neg (by decide), if_pos rfl, StateExcept.bind_ok hread,
        ofBytesBE_toBytesBE_of_lt hfits]
      rfl

/-- The masking key is read where there is one. -/
theorem readMaskingKey_wire {sock : Socket} (header : WireHeader) {more : Bytes}
    (hrest : sock.rest = header.keyBytes ++ more) :
    ∃ sock', readMaskingKey header.mask.isSome sock = .ok header.keyBytes sock' ∧
      sock.Left sock' more := by
  have hsize := sock.memory.eight_le_largest
  cases hmask : header.mask with
  | none =>
      rw [WireHeader.keyBytes, hmask] at hrest ⊢
      exact ⟨sock, rfl, rfl, rfl, rfl, rfl, hrest⟩
  | some key =>
      rw [WireHeader.keyBytes, hmask] at hrest ⊢
      have hlen : ((some key).map Vector.toList |>.getD []).length = 4 := by simp
      obtain ⟨sock', hread, hleft⟩ := Socket.recvExact_ok hrest (by rw [hlen]; omega)
      rw [hlen] at hread
      exact ⟨sock', hread, hleft⟩

/-- A byte of the masking key. -/
theorem getD_toList (key : MaskingKey) (i : Nat) :
    key.toList.getD (i % 4) 0 = key.get ⟨i % 4, Nat.mod_lt i (by decide)⟩ := by
  have hindex : i % 4 < key.toList.length := by
    rw [Vector.length_toList]
    exact Nat.mod_lt i (by decide)
  rw [List.getD_eq_getElem?_getD, List.getElem?_eq_getElem hindex, Option.getD_some]
  exact Vector.getElem_toList hindex

/-- Reading and writing mask in the same way. -/
theorem xorMask_toList (key : MaskingKey) (payload : Bytes) :
    xorMask key.toList payload = applyMask key payload := by
  simp only [xorMask, applyMask, getD_toList]

/-- Masking twice with the same key changes nothing. -/
theorem applyMask_applyMask (key : MaskingKey) (payload : Bytes) :
    applyMask key (applyMask key payload) = payload := by
  apply List.ext_getElem
  · simp [applyMask]
  · intro i _ _
    simp only [applyMask, List.getElem_mapIdx]
    rw [UInt8.xor_assoc, UInt8.xor_self, UInt8.xor_zero]

/-- The payload behind the mask. -/
theorem unmask_body (frame : WireFrame) :
    (if frame.header.mask.isSome then xorMask frame.header.keyBytes frame.body else frame.body) =
      frame.payload := by
  cases hmask : frame.header.mask with
  | none => simp [WireFrame.body, hmask]
  | some key =>
      rw [WireHeader.keyBytes, WireFrame.body, hmask]
      exact (xorMask_toList key _).trans (applyMask_applyMask key frame.payload)

theorem length_body (frame : WireFrame) : frame.body.length = frame.header.length := by
  rw [← frame.complete, WireFrame.body]
  cases frame.header.mask with
  | none => rfl
  | some key => simp [applyMask]

/-! ### read_frame -/

/-- What `read_frame` makes of the bytes behind a header. -/
def WireHeader.frameOf (header : WireHeader) (received : Bytes) : WsFrame where
  fin := header.fin
  opcode := header.opcode
  payload := if header.mask.isSome then xorMask header.keyBytes received else received

/-- Behind a header `read_frame` reads the payload it announces. -/
theorem readFrame_header {sock : Socket} {header : WireHeader} {more : Bytes}
    (hrest : sock.rest = header.bytes ++ more) :
    ∃ sock', sock.Left sock' more ∧
      readFrame sock = (do return header.frameOf (← Socket.recvExact header.length)) sock' := by
  have hsize := sock.memory.eight_le_largest
  have hrest₀ : sock.rest = [firstByte header.fin header.opcode,
      secondByte header.mask.isSome (header.form.code header.length)] ++
        (header.form.extension header.length ++ (header.keyBytes ++ more)) := by
    rw [hrest, WireHeader.bytes]
    simp
  obtain ⟨sock₁, hhead, hleft₁⟩ := Socket.recvExact_ok hrest₀ (Nat.le_trans (by simp) hsize)
  obtain ⟨sock₂, hlength, hleft₂⟩ := readLength_wire header.fits hleft₁.rest
  obtain ⟨sock₃, hkey, hleft₃⟩ := readMaskingKey_wire header hleft₂.rest
  refine ⟨sock₃, (hleft₁.trans hleft₂).trans hleft₃, ?_⟩
  rw [readFrame]
  refine (StateExcept.bind_ok hhead).trans ?_
  simp only [List.getD_cons_zero, List.getD_cons_succ, parseHeader_wire]
  refine (StateExcept.bind_ok hlength).trans ?_
  exact StateExcept.bind_ok hkey

/-- The frame that is made of a body is the content of the frame. -/
theorem frameOf_body (frame : WireFrame) : frame.header.frameOf frame.body = frame.content := by
  rw [WireHeader.frameOf, unmask_body]
  rfl

/-- A complete frame is returned, and nothing behind it is read. -/
theorem readFrame_frame {sock : Socket} {frame : WireFrame} {more : Bytes}
    (hrest : sock.rest = frame.bytes ++ more) (hserved : frame.payload.length ≤ sock.memory.largest) :
    ∃ sock', readFrame sock = .ok frame.content sock' ∧ sock.Left sock' more := by
  rw [WireFrame.bytes, List.append_assoc] at hrest
  obtain ⟨sock₁, hleft₁, hframe⟩ := readFrame_header hrest
  rw [← length_body] at hframe
  obtain ⟨sock₂, hbody, hleft₂⟩ := Socket.recvExact_ok hleft₁.rest
    (by rw [hleft₁.memory, length_body, ← frame.complete]; exact hserved)
  refine ⟨sock₂, ?_, hleft₁.trans hleft₂⟩
  rw [hframe, StateExcept.bind_ok hbody, frameOf_body]
  rfl

/-- The payload that a header announces is refused when the process cannot hold it. -/
theorem readFrame_oversized {sock : Socket} {header : WireHeader} {more : Bytes}
    (hrest : sock.rest = header.bytes ++ more) (hlarge : sock.memory.largest < header.length) :
    ∃ sock', readFrame sock = .error (Memory.refusal header.length) sock' := by
  obtain ⟨sock', hleft, hframe⟩ := readFrame_header hrest
  rw [← hleft.memory] at hlarge
  exact ⟨sock', hframe.trans (StateExcept.bind_error (Socket.recvExact_refused hlarge))⟩

/-- Reading so many bytes succeeds, or the stream ends before they are there. -/
theorem recvExact_cases (sock : Socket) (n : Nat) (hmax : n ≤ sock.memory.largest) :
    (∃ bytes more sock', sock.rest = bytes ++ more ∧ bytes.length = n ∧
      Socket.recvExact n sock = .ok bytes sock' ∧ sock.Left sock' more) ∨
    ∃ reason sock', Socket.recvExact n sock = .error (.connectionClosed none reason) sock' ∧
      sock.Left sock' [] := by
  by_cases hshort : sock.rest.length < n
  · obtain ⟨sock', hread, hleft⟩ := Socket.recvExact_closed hmax hshort
    exact .inr ⟨_, sock', hread, hleft⟩
  · left
    have hlen : (sock.rest.take n).length = n := by
      rw [List.length_take]
      omega
    have hsplit : sock.rest = sock.rest.take n ++ sock.rest.drop n := (List.take_append_drop n _).symm
    obtain ⟨sock', hread, hleft⟩ := Socket.recvExact_ok hsplit (by rw [hlen]; exact hmax)
    rw [hlen] at hread
    exact ⟨_, _, sock', hsplit, hlen, hread, hleft⟩

/-- The form of the length that a second byte announces. -/
theorem readLength_cases (sock : Socket) {code : Nat} (hcode : code < 128) :
    (∃ form length more sock', code = LengthForm.code form length ∧ form.Fits length ∧
      (code < 126 → form = .short) ∧ sock.rest = form.extension length ++ more ∧
      readLength code sock = .ok length sock' ∧ sock.Left sock' more) ∨
    ∃ reason sock', readLength code sock = .error (.connectionClosed none reason) sock' ∧
      sock.Left sock' [] := by
  have hsize := sock.memory.eight_le_largest
  by_cases hmedium : code = 126
  · rw [readLength, if_pos hmedium]
    rcases recvExact_cases sock 2 (by omega) with
      ⟨bytes, more, sock', hrest, hlen, hread, hleft⟩ | ⟨reason, sock', hread, hleft⟩
    · left
      have hback := toBytesBE_ofBytesBE bytes
      have hfits := ofBytesBE_lt bytes
      rw [hlen] at hback hfits
      refine ⟨.medium, ofBytesBE bytes, more, sock', hmedium, hfits, by omega, ?_, ?_, hleft⟩
      · rw [LengthForm.extension, hback]
        exact hrest
      · exact StateExcept.bind_ok hread
    · exact .inr ⟨reason, sock', StateExcept.bind_error hread, hleft⟩
  · by_cases hlong : code = 127
    · rw [readLength, if_neg hmedium, if_pos hlong]
      rcases recvExact_cases sock 8 (by omega) with
        ⟨bytes, more, sock', hrest, hlen, hread, hleft⟩ | ⟨reason, sock', hread, hleft⟩
      · left
        have hback := toBytesBE_ofBytesBE bytes
        have hfits := ofBytesBE_lt bytes
        rw [hlen] at hback hfits
        refine ⟨.long, ofBytesBE bytes, more, sock', hlong, hfits, by omega, ?_, ?_, hleft⟩
        · rw [LengthForm.extension, hback]
          exact hrest
        · exact StateExcept.bind_ok hread
      · exact .inr ⟨reason, sock', StateExcept.bind_error hread, hleft⟩
    · left
      have hshort : code < 126 := by omega
      refine ⟨.short, code, sock.rest, sock, rfl, hshort, fun _ => rfl, rfl, ?_, Socket.Left.refl sock⟩
      rw [readLength, if_neg hmedium, if_neg hlong]
      rfl

/-- The stream holds a masking key where the frame is masked, or it ends. -/
theorem readMaskingKey_cases (sock : Socket) (masked : Bool) :
    (∃ (mask : Option MaskingKey) (more : Bytes), mask.isSome = masked ∧
      sock.rest = (mask.map Vector.toList).getD [] ++ more) ∨
      ∃ reason sock', readMaskingKey masked sock = .error (.connectionClosed none reason) sock' ∧
        sock.Left sock' [] := by
  cases masked with
  | false => exact .inl ⟨none, sock.rest, rfl, rfl⟩
  | true =>
      rcases recvExact_cases sock 4 (Nat.le_trans (by decide) sock.memory.eight_le_largest) with
        ⟨key, more, _, hrest, hlen, _, _⟩ | ⟨reason, sock', hread, hleft⟩
      · left
        refine ⟨some ⟨key.toArray, hlen⟩, more, rfl, ?_⟩
        simp [Vector.toList, hrest]
      · exact .inr ⟨reason, sock', hread, hleft⟩

/-- What `read_frame` does with a stream: it returns a frame the stream starts with; it asks for more
than the process can hold, which a header announced; the stream ends; or a check fails. -/
inductive FrameRead (sock : Socket) : EStateM.Result TransportExn Socket WsFrame → Prop where
  | frame {frame : WireFrame} {more : Bytes} {sock' : Socket} (stream : sock.rest = frame.bytes ++ more)
      (served : frame.payload.length ≤ sock.memory.largest) (left : sock.Left sock' more) :
      FrameRead sock (.ok frame.content sock')
  | oversized {header : WireHeader} {more : Bytes} {sock' : Socket}
      (stream : sock.rest = header.bytes ++ more) (large : sock.memory.largest < header.length)
      (left : sock.Left sock' more) :
      FrameRead sock (.error (Memory.refusal header.length) sock')
  | ended {reason : String} {sock' : Socket} (left : sock.Left sock' []) :
      FrameRead sock (.error (.connectionClosed none reason) sock')
  | malformed {text : String} {more : Bytes} {sock' : Socket} (left : sock.Left sock' more) :
      FrameRead sock (.error (.protocolError text) sock')

/-- A stream starts with a header, or `read_frame` ends before the payload. -/
theorem header_or_error (sock : Socket) :
    (∃ header more, sock.rest = WireHeader.bytes header ++ more) ∨
      FrameRead sock (readFrame sock) := by
  have hsize := sock.memory.eight_le_largest
  rcases recvExact_cases sock 2 (by omega) with
    ⟨head, more₁, sock₁, hrest₁, hlen₁, hread₁, hleft₁⟩ | ⟨reason, sock₁, hread₁, hleft₁⟩
  swap
  · right
    rw [readFrame, StateExcept.bind_error hread₁]
    exact .ended hleft₁
  obtain ⟨b0, b1, rfl⟩ := List.length_eq_two.mp hlen₁
  have hframe : readFrame sock = _ := StateExcept.bind_ok hread₁
  simp only [List.getD_cons_zero, List.getD_cons_succ] at hframe
  cases hheader : parseHeader b0 b1 with
  | error exn =>
      right
      obtain ⟨text, rfl⟩ := parseHeader_error hheader
      rw [hframe, hheader]
      exact .malformed hleft₁
  | ok found =>
      obtain ⟨rfl, rfl, hcode, hcontrol⟩ := parseHeader_ok hheader
      rw [hheader] at hframe
      rcases readLength_cases sock₁ hcode with
        ⟨form, length, more₂, sock₂, hform, hfits, hshort, hrest₂, hread₂, hleft₂⟩ |
        ⟨reason, sock₂, hread₂, hleft₂⟩
      swap
      · right
        rw [hframe]
        simp only
        rw [StateExcept.bind_error hread₂]
        exact .ended (hleft₁.trans hleft₂)
      rcases readMaskingKey_cases sock₂ found.masked with
        ⟨mask, more₃, hmasked, hrest₃⟩ | ⟨reason, sock₃, hread₃, hleft₃⟩
      · left
        refine ⟨{
          fin := found.fin
          opcode := found.opcode
          form := form
          length := length
          mask := mask
          fits := hfits
          control := fun h => ⟨(hcontrol h).1, hshort (hcontrol h).2⟩ }, more₃, ?_⟩
        rw [hrest₁, ← hleft₁.rest, hrest₂, ← hleft₂.rest, hrest₃, WireHeader.bytes, WireHeader.keyBytes, ← hform,
          ← hmasked]
        simp
      · right
        rw [hframe]
        simp only
        rw [StateExcept.bind_ok hread₂, StateExcept.bind_error hread₃]
        exact .ended ((hleft₁.trans hleft₂).trans hleft₃)

/-- The payload behind a header, with its mask taken off. -/
theorem exists_frame (header : WireHeader) {received : Bytes} (hlen : received.length = header.length) :
    ∃ frame : WireFrame, frame.header = header ∧ frame.body = received := by
  cases hmask : header.mask with
  | none =>
      refine ⟨⟨header, received, hlen⟩, rfl, ?_⟩
      rw [WireFrame.body]
      simp only [hmask]
  | some key =>
      have hcomplete : (applyMask key received).length = header.length := by
        rw [← hlen]
        simp [applyMask]
      refine ⟨⟨header, applyMask key received, hcomplete⟩, rfl, ?_⟩
      rw [WireFrame.body]
      simp only [hmask]
      exact applyMask_applyMask key received

/-- Whatever the stream holds, `read_frame` does one of the four things. -/
theorem readFrame_cases (sock : Socket) : FrameRead sock (readFrame sock) := by
  rcases header_or_error sock with ⟨header, more, hrest⟩ | herror
  · obtain ⟨sock₁, hleft₁, hframe⟩ := readFrame_header hrest
    rw [hframe]
    by_cases hmax : header.length ≤ sock.memory.largest
    · rcases recvExact_cases sock₁ header.length (hleft₁.memory ▸ hmax) with
        ⟨body, more₂, sock₂, hrest₂, hlen₂, hread₂, hleft₂⟩ | ⟨reason, sock₂, hread₂, hleft₂⟩
      · obtain ⟨frame, rfl, rfl⟩ := exists_frame header hlen₂
        rw [StateExcept.bind_ok hread₂, frameOf_body]
        have hstream : sock.rest = frame.bytes ++ more₂ := by
          rw [hrest, ← hleft₁.rest, hrest₂, WireFrame.bytes, List.append_assoc]
        exact .frame hstream (frame.complete ▸ hmax) (hleft₁.trans hleft₂)
      · rw [StateExcept.bind_error hread₂]
        exact .ended (hleft₁.trans hleft₂)
    · have hlarge := Nat.lt_of_not_le hmax
      rw [StateExcept.bind_error (Socket.recvExact_refused (hleft₁.memory ▸ hlarge))]
      exact .oversized hrest hlarge hleft₁
  · exact herror

/-- At the end of the stream there is no frame. -/
theorem readFrame_end {sock : Socket} (hend : sock.rest = []) :
    ∃ reason sock', readFrame sock = .error (.connectionClosed none reason) sock' ∧
      sock.Left sock' [] := by
  have hshort : sock.rest.length < 2 := by
    rw [hend]
    decide
  obtain ⟨sock', hread, hleft⟩ :=
    Socket.recvExact_closed (Nat.le_trans (by decide) sock.memory.eight_le_largest) hshort
  exact ⟨_, sock', StateExcept.bind_error hread, hleft⟩

/-! ### What encode_frame writes -/

/-- The shortest form of a length. -/
def LengthForm.minimal (length : Nat) : LengthForm :=
  if length < 126 then .short else if length < 65536 then .medium else .long

theorem LengthForm.minimal_fits {length : Nat} (h : length < 2 ^ 64) :
    (LengthForm.minimal length).Fits length := by
  rw [minimal]
  split
  · assumption
  · split
    · rename_i hmedium
      exact Nat.lt_of_lt_of_eq hmedium (by decide)
    · exact Nat.lt_of_lt_of_eq h (by decide)

/-- The frame that `encode_frame` writes: final, with the shortest form of the length. -/
def WireFrame.encoded (opcode : Opcode) (payload : Bytes) (mask : Option MaskingKey)
    (size : payload.length < 2 ^ 64)
    (control : opcode.isControl = true → payload.length < 126) : WireFrame where
  header := {
    fin := true
    opcode := opcode
    form := .minimal payload.length
    length := payload.length
    mask := mask
    fits := LengthForm.minimal_fits size
    control := fun h => ⟨rfl, by rw [LengthForm.minimal, if_pos (control h)]⟩ }
  payload := payload
  complete := rfl

/-- The header bytes behind the first one. -/
theorem lengthHeader_minimal (masked : Bool) {length : Nat} (h : length < 2 ^ 64) :
    lengthHeader (if masked then 0x80 else 0x00) length =
      .ok (secondByte masked ((LengthForm.minimal length).code length) ::
        (LengthForm.minimal length).extension length) := by
  rw [lengthHeader, LengthForm.minimal]
  by_cases hshort : length < 126
  · rw [if_pos hshort, if_pos hshort]
    rfl
  · rw [if_neg hshort, if_neg hshort]
    by_cases hmedium : length < 65536
    · have hpack : structPackH length = .ok (toBytesBE 2 length) := by
        rw [structPackH, if_pos (by omega), Int.toNat_natCast]
      rw [if_pos hmedium, if_pos hmedium, hpack]
      rfl
    · have hpack : structPackQ length = .ok (toBytesBE 8 length) := by
        rw [structPackQ, if_pos (by omega), Int.toNat_natCast]
      rw [if_neg hmedium, if_neg hmedium, hpack]
      rfl

/-- `encode_frame` writes a frame of RFC 6455. -/
theorem encodeFrame_wire {opcode : Opcode} {payload : Bytes} (mask : Option MaskingKey)
    (size : payload.length < 2 ^ 64) (control : opcode.isControl = true → payload.length < 126) :
    encodeFrame opcode payload mask = .ok (WireFrame.encoded opcode payload mask size control).bytes := by
  cases mask with
  | none =>
      have hheader := lengthHeader_minimal false size
      rw [encodeFrame]
      simp only [Bool.false_eq_true, if_false] at hheader
      rw [hheader]
      simp [WireFrame.bytes, WireFrame.encoded, WireHeader.bytes, WireHeader.keyBytes, WireFrame.body,
        firstByte]
  | some key =>
      have hheader := lengthHeader_minimal true size
      rw [encodeFrame]
      simp only [if_true] at hheader
      rw [hheader]
      simp [WireFrame.bytes, WireFrame.encoded, WireHeader.bytes, WireHeader.keyBytes, WireFrame.body,
        firstByte]

end Priestly
