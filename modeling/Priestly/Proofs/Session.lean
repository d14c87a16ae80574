/-
Module: Priestly.Proofs.Session
Layer: Proofs
Purpose: One specification lemma for each operation of a session: which header bytes a tag binds, when
  a payload unpacks to what was packed, which frame `seal` makes, and exactly which frames `open`
  verifies, and every way a call of `open` ends.
Imports: Priestly.Protocol.Session, Priestly.Proofs.Huffman
Trusted boundary: none
Main exports: tagMessage_inj, unpack_pack, SessionState.seal_eq_ok, SessionState.verify_eq_ok_iff,
  SessionState.OpenResult, SessionState.open_result, SessionState.open_sealed
-/
import Priestly.Protocol.Session
import Priestly.Proofs.Huffman

namespace Priestly

open ByteCodec

/-! ### The authenticated header -/

theorem structPackQ_ok {n : Int} (h0 : 0 ≤ n) (h : n < 2 ^ 64) :
    structPackQ n = .ok (toBytesBE 8 n.toNat) := by
  rw [structPackQ, if_pos ⟨h0, h⟩]

theorem structPackQ_eq_ok {n : Int} {bytes : Bytes} (h : structPackQ n = .ok bytes) :
    0 ≤ n ∧ n < 2 ^ 64 ∧ bytes = toBytesBE 8 n.toNat := by
  rw [structPackQ] at h
  by_cases hn : 0 ≤ n ∧ n < 2 ^ 64
  · rw [if_pos hn] at h
    exact ⟨hn.1, hn.2, (Except.ok.inj h).symm⟩
  · rw [if_neg hn] at h
    cases h

theorem tagMessage_ok {epoch seq : Int} (he : 0 ≤ epoch ∧ epoch < 2 ^ 64)
    (hs : 0 ≤ seq ∧ seq < 2 ^ 64) (direction : String) (payload : Bytes) :
    tagMessage epoch seq direction payload =
      .ok (toBytesBE 8 epoch.toNat ++ toBytesBE 8 seq.toNat ++ [directionByte direction] ++
        payload) := by
  simp only [tagMessage, structPackQ_ok he.1 he.2, structPackQ_ok hs.1 hs.2, ok_bind, pure_ok]

theorem tagMessage_eq_ok {epoch seq : Int} {direction : String} {payload message : Bytes}
    (h : tagMessage epoch seq direction payload = .ok message) :
    (0 ≤ epoch ∧ epoch < 2 ^ 64) ∧ (0 ≤ seq ∧ seq < 2 ^ 64) ∧
      message = toBytesBE 8 epoch.toNat ++ toBytesBE 8 seq.toNat ++ [directionByte direction] ++
        payload := by
  obtain ⟨epochBytes, hepoch, h⟩ := bind_eq_ok h
  obtain ⟨seqBytes, hseq, h⟩ := bind_eq_ok h
  obtain ⟨he0, he, rfl⟩ := structPackQ_eq_ok hepoch
  obtain ⟨hs0, hs, rfl⟩ := structPackQ_eq_ok hseq
  exact ⟨⟨he0, he⟩, ⟨hs0, hs⟩, (Except.ok.inj h).symm⟩

/-- Packing the header of a tag fails only in `struct`, when a number does not fit its field. -/
theorem tagMessage_cases (epoch seq : Int) (direction : String) (payload : Bytes) :
    (∃ message, tagMessage epoch seq direction payload = .ok message) ∨
    (¬ ((0 ≤ epoch ∧ epoch < 2 ^ 64) ∧ (0 ≤ seq ∧ seq < 2 ^ 64)) ∧
      ∃ text, tagMessage epoch seq direction payload = .error (.structError text)) := by
  by_cases hepoch : 0 ≤ epoch ∧ epoch < 2 ^ 64
  · by_cases hseq : 0 ≤ seq ∧ seq < 2 ^ 64
    · left
      exact ⟨_, tagMessage_ok hepoch hseq direction payload⟩
    · right
      constructor
      · intro hboth
        exact hseq hboth.2
      · have hfail : structPackQ seq = .error (.structError "int too large to convert") := if_neg hseq
        rw [tagMessage, structPackQ_ok hepoch.1 hepoch.2, ok_bind, hfail]
        exact ⟨_, rfl⟩
  · right
    constructor
    · intro hboth
      exact hepoch hboth.1
    · have hfail : structPackQ epoch = .error (.structError "int too large to convert") := if_neg hepoch
      rw [tagMessage, hfail]
      exact ⟨_, rfl⟩

private theorem toBytesBE_eight_inj {m n : Int} (hm : 0 ≤ m ∧ m < 2 ^ 64)
    (hn : 0 ≤ n ∧ n < 2 ^ 64) (h : toBytesBE 8 m.toNat = toBytesBE 8 n.toNat) : m = n := by
  have hnat : m.toNat = n.toNat := by
    apply toBytesBE_injOn _ _ h
    · omega
    · omega
  omega

/-- The authenticated bytes determine the epoch, the sequence number, the direction byte and the
payload. -/
theorem tagMessage_inj {epoch seq epoch' seq' : Int} {direction direction' : String}
    {payload payload' message : Bytes}
    (h : tagMessage epoch seq direction payload = .ok message)
    (h' : tagMessage epoch' seq' direction' payload' = .ok message) :
    epoch = epoch' ∧ seq = seq' ∧ directionByte direction = directionByte direction' ∧
      payload = payload' := by
  obtain ⟨he, hs, hmessage⟩ := tagMessage_eq_ok h
  obtain ⟨he', hs', hmessage'⟩ := tagMessage_eq_ok h'
  rw [hmessage'] at hmessage
  simp only [List.append_assoc] at hmessage
  obtain ⟨hepoch, hrest⟩ := List.append_inj hmessage (by simp)
  obtain ⟨hseq, hrest⟩ := List.append_inj hrest (by simp)
  obtain ⟨hdir, hpayload⟩ := List.append_inj hrest (by simp)
  exact ⟨(toBytesBE_eight_inj he' he hepoch).symm, (toBytesBE_eight_inj hs' hs hseq).symm,
    (List.cons.inj hdir).1.symm, hpayload.symm⟩

theorem computeTag_eq_ok {mac : Mac} {key : Bytes} {epoch seq : Int} {direction : String}
    {payload : Bytes} {tag : String} (h : computeTag mac key epoch seq direction payload = .ok tag) :
    ∃ message, tagMessage epoch seq direction payload = .ok message ∧ tag = sign mac key message := by
  obtain ⟨message, hmessage, htag⟩ := bind_eq_ok h
  exact ⟨message, hmessage, (Except.ok.inj htag).symm⟩

theorem isAscii_sign (mac : Mac) (key data : Bytes) : isAscii (sign mac key data) = true :=
  isAscii_hexString _

/-- Comparing with a tag the program made. -/
theorem compareDigest_sign {mac : Mac} {key data : Bytes} {tag : String} :
    compareDigest (sign mac key data) tag = .ok true ↔ tag = sign mac key data := by
  rw [compareDigest]
  by_cases h : isAscii tag = true
  · rw [if_pos ⟨isAscii_sign mac key data, h⟩]
    simp [eq_comm]
  · rw [if_neg fun hboth => h hboth.2]
    constructor
    · intro hbad
      cases hbad
    · intro htag
      rw [htag] at h
      exact absurd (isAscii_sign mac key data) h

/-! ### The payload codec -/

/-- Packing fails only when the length does not fit the compressed header. -/
theorem pack_ok_iff (plaintext : Bytes) :
    (∃ blob, pack plaintext = .ok blob) ↔ plaintext.length < 2 ^ 32 := by
  rw [← Huffman.compress_eq_ok_iff]
  constructor
  · rintro ⟨blob, h⟩
    obtain ⟨compressed, hcompressed, _⟩ := bind_eq_ok h
    exact ⟨compressed, hcompressed⟩
  · rintro ⟨compressed, h⟩
    by_cases hshort : compressed.length < plaintext.length
    · exact ⟨huffmanMarker :: compressed, by simp [pack, h, hshort]⟩
    · exact ⟨storedMarker :: plaintext, by simp [pack, h, hshort]⟩

/-- Unpacking gives back what was packed. -/
theorem unpack_pack {plaintext blob : Bytes} (h : pack plaintext = .ok blob) :
    unpack blob = .ok plaintext := by
  obtain ⟨compressed, hcompressed, h⟩ := bind_eq_ok h
  by_cases hshort : compressed.length < plaintext.length
  · rw [if_pos hshort] at h
    rw [← Except.ok.inj h]
    have hround := Huffman.decompress_compress hcompressed []
    rw [List.append_nil] at hround
    simp [unpack, hround]
  · rw [if_neg hshort] at h
    rw [← Except.ok.inj h]
    simp [unpack, storedMarker, huffmanMarker]

namespace SessionState

variable {s : SessionState} {rt : Runtime}

/-- Whether compressed or stored, a body unpacks to its plaintext. -/
theorem unpack_body {plaintext body : Bytes} (h : s.body plaintext = .ok body) :
    unpack body = .ok plaintext := by
  rw [SessionState.body] at h
  by_cases hcompress : s.compress = true
  · rw [if_pos hcompress] at h
    exact unpack_pack h
  · rw [if_neg hcompress] at h
    rw [← Except.ok.inj h]
    simp [unpack, storedMarker, huffmanMarker]

/-- A body exists for every plaintext that fits the compressed header, and without compression for
every plaintext. -/
theorem body_ok_iff (plaintext : Bytes) :
    (∃ body, s.body plaintext = .ok body) ↔ (s.compress = true → plaintext.length < 2 ^ 32) := by
  rw [SessionState.body]
  by_cases hcompress : s.compress = true
  · rw [if_pos hcompress, pack_ok_iff]
    simp [hcompress]
  · rw [if_neg hcompress]
    simp [hcompress]

/-- What a successful `seal` produces. -/
theorem seal_eq_ok {mac : Mac} {plaintext : Bytes} {frame : SealedFrame} {s' : SessionState}
    (h : s.seal mac plaintext = (.ok frame, s')) :
    s' = { s with txSeq := s.txSeq + 1 } ∧
      ∃ body message, s.body plaintext = .ok body ∧
        tagMessage s.epoch (s.txSeq + 1) s.txDir body = .ok message ∧
        frame = { epoch := s.epoch, seq := s.txSeq + 1, direction := s.txDir,
                  payload := b64encode body, tag := sign mac s.txMac message } := by
  obtain ⟨hframe, hstate⟩ := Prod.mk.inj h
  refine ⟨hstate.symm, ?_⟩
  obtain ⟨body, hbody, hframe⟩ := bind_eq_ok hframe
  obtain ⟨tag, htag, hframe⟩ := bind_eq_ok hframe
  obtain ⟨message, hmessage, rfl⟩ := computeTag_eq_ok htag
  exact ⟨body, message, hbody, hmessage, (Except.ok.inj hframe).symm⟩

/-- The counter moves by one whether or not sealing succeeds; nothing else changes. -/
@[simp] theorem seal_snd (s : SessionState) (mac : Mac) (plaintext : Bytes) :
    (s.seal mac plaintext).2 = { s with txSeq := s.txSeq + 1 } := rfl

/-- The frame `seal` makes from a body and the bytes it authenticates. -/
theorem seal_ok {mac : Mac} {plaintext body message : Bytes} (hbody : s.body plaintext = .ok body)
    (hmessage : tagMessage s.epoch (s.txSeq + 1) s.txDir body = .ok message) :
    s.seal mac plaintext =
      (.ok { epoch := s.epoch, seq := s.txSeq + 1, direction := s.txDir,
             payload := b64encode body, tag := sign mac s.txMac message },
        { s with txSeq := s.txSeq + 1 }) := by
  have hbody' : SessionState.body { s with txSeq := s.txSeq + 1 } plaintext = .ok body := hbody
  simp only [SessionState.seal, sealAt, hbody', ok_bind, computeTag, hmessage, pure_ok]

/-- Sealing succeeds exactly for payloads with a body and counters that fit their header fields. -/
theorem seal_ok_iff {mac : Mac} {plaintext : Bytes} :
    (∃ frame, (s.seal mac plaintext).1 = .ok frame) ↔
      (s.compress = true → plaintext.length < 2 ^ 32) ∧ (0 ≤ s.epoch ∧ s.epoch < 2 ^ 64) ∧
        (0 ≤ s.txSeq + 1 ∧ s.txSeq + 1 < 2 ^ 64) := by
  constructor
  · rintro ⟨frame, hframe⟩
    obtain ⟨_, body, message, hbody, hmessage, _⟩ :=
      seal_eq_ok (Prod.ext hframe (seal_snd s mac plaintext))
    obtain ⟨hepoch, hseq, _⟩ := tagMessage_eq_ok hmessage
    exact ⟨(body_ok_iff plaintext).mp ⟨body, hbody⟩, hepoch, hseq⟩
  · rintro ⟨hlength, hepoch, hseq⟩
    obtain ⟨body, hbody⟩ := (body_ok_iff plaintext).mpr hlength
    exact ⟨_, congrArg Prod.fst (seal_ok hbody (tagMessage_ok hepoch hseq s.txDir body))⟩

/-- Exactly the frames that `open` verifies, and the body it takes from them. -/
theorem verify_eq_ok_iff {frame : SealedFrame} {body : Bytes} :
    s.verify rt frame = .ok body ↔
      frame.direction = s.rxDir ∧ b64decode frame.payload = .ok body ∧
        (∃ message, tagMessage frame.epoch frame.seq frame.direction body = .ok message ∧
          frame.tag = sign rt.hmac s.rxMac message) ∧
        s.rxSeq < frame.seq := by
  constructor
  · intro h
    rw [verify] at h
    by_cases hdir : frame.direction = s.rxDir
    · rw [if_neg (not_not.mpr hdir)] at h
      cases hdecode : b64decode frame.payload with
      | error exn =>
          rw [hdecode] at h
          cases h
      | ok decoded =>
          rw [hdecode] at h
          obtain ⟨tag, htag, h⟩ := bind_eq_ok h
          obtain ⟨message, hmessage, rfl⟩ := computeTag_eq_ok htag
          obtain ⟨same, hsame, h⟩ := bind_eq_ok h
          cases same with
          | false => cases h
          | true =>
              by_cases hseq : frame.seq ≤ s.rxSeq
              · simp only [Bool.not_true, Bool.false_eq_true, if_false, if_pos hseq] at h
                cases h
              · simp only [Bool.not_true, Bool.false_eq_true, if_false, if_neg hseq] at h
                cases h
                exact ⟨hdir, rfl, ⟨message, hmessage, compareDigest_sign.mp hsame⟩, by omega⟩
    · rw [if_pos hdir] at h
      cases h
  · rintro ⟨hdir, hdecode, ⟨message, hmessage, htag⟩, hseq⟩
    have hcompare := compareDigest_sign.mpr htag
    rw [verify, if_neg (not_not.mpr hdir), hdecode]
    simp only [computeTag, hmessage, ok_bind, pure_ok, hcompare, Bool.not_true, Bool.false_eq_true,
      if_false, if_neg (Int.not_le.mpr hseq)]

/-- A frame that fails verification leaves the state as it was. -/
theorem open_of_verify_error {frame : SealedFrame} {exn : Exn} (h : s.verify rt frame = .error exn) :
    s.open rt frame = (.error exn, s) := by
  rw [SessionState.open, h]

/-- A frame that is verified moves the receive counter to its number. -/
theorem open_of_verify_ok {frame : SealedFrame} {body : Bytes} (h : s.verify rt frame = .ok body) :
    s.open rt frame = (unpack body, { s with rxSeq := frame.seq }) := by
  rw [SessionState.open, h]

/-- The checks on the fields of a frame that the tag does not bind: the direction is the expected one and
the payload is base64 of a body. -/
def Addressed (s : SessionState) (frame : SealedFrame) (body : Bytes) : Prop :=
  frame.direction = s.rxDir ∧ b64decode frame.payload = .ok body

/-- A frame is addressed with one body. -/
theorem Addressed.body_eq {frame : SealedFrame} {body body' : Bytes} (h : s.Addressed frame body)
    (h' : s.Addressed frame body') : body = body' :=
  Except.ok.inj (h.2.symm.trans h'.2)

/-- The seven ways `open` ends, each with the checks that lead to it, the result and the state. -/
inductive OpenResult (s : SessionState) (rt : Runtime) (frame : SealedFrame) :
    Except Exn Bytes × SessionState → Prop where
  /-- The frame is for the other direction. -/
  | misdirected (text : String) (direction : frame.direction ≠ s.rxDir) :
      OpenResult s rt frame (.error (.authenticationError text), s)
  /-- The payload is no base64. -/
  | undecodable (text : String) {exn : Exn} (payload : b64decode frame.payload = .error exn) :
      OpenResult s rt frame (.error (.authenticationError text), s)
  /-- The epoch or the sequence number does not fit its header field. -/
  | headerOverflow (text : String) {body : Bytes} (addressed : s.Addressed frame body)
      (header : ¬ ((0 ≤ frame.epoch ∧ frame.epoch < 2 ^ 64) ∧ (0 ≤ frame.seq ∧ frame.seq < 2 ^ 64))) :
      OpenResult s rt frame (.error (.structError text), s)
  /-- The tag has a character outside ASCII. -/
  | unreadableTag (text : String) {body message : Bytes} (addressed : s.Addressed frame body)
      (input : tagMessage frame.epoch frame.seq frame.direction body = .ok message)
      (tag : isAscii frame.tag = false) :
      OpenResult s rt frame (.error (.typeError text), s)
  /-- The tag is not the one of the frame. -/
  | forged (text : String) {body message : Bytes} (addressed : s.Addressed frame body)
      (input : tagMessage frame.epoch frame.seq frame.direction body = .ok message)
      (readable : isAscii frame.tag = true) (tag : frame.tag ≠ sign rt.hmac s.rxMac message) :
      OpenResult s rt frame (.error (.authenticationError text), s)
  /-- The sequence number is not above the last one. -/
  | stale (text : String) {body message : Bytes} (addressed : s.Addressed frame body)
      (input : tagMessage frame.epoch frame.seq frame.direction body = .ok message)
      (tag : frame.tag = sign rt.hmac s.rxMac message) (seq : frame.seq ≤ s.rxSeq) :
      OpenResult s rt frame (.error (.replayError text), s)
  /-- The body is unpacked. -/
  | verified {body message : Bytes} (addressed : s.Addressed frame body)
      (input : tagMessage frame.epoch frame.seq frame.direction body = .ok message)
      (tag : frame.tag = sign rt.hmac s.rxMac message) (seq : s.rxSeq < frame.seq) :
      OpenResult s rt frame (unpack body, { s with rxSeq := frame.seq })

section Addressed

variable {frame : SealedFrame} {body message : Bytes}

/-- What is left to check once a frame is addressed. -/
theorem verify_addressed (h : s.Addressed frame body) : s.verify rt frame = (do
    let expected ← computeTag rt.hmac s.rxMac frame.epoch frame.seq frame.direction body
    if !(← compareDigest expected frame.tag) then
      .error (.authenticationError "authentication tag does not verify")
    else if frame.seq ≤ s.rxSeq then
      .error (.replayError s!"stale sequence number {frame.seq} (last seen {s.rxSeq})")
    else .ok body) := by
  rw [verify, if_neg (not_not.mpr h.1), h.2]

theorem verify_unreadableTag (h : s.Addressed frame body)
    (hmessage : tagMessage frame.epoch frame.seq frame.direction body = .ok message)
    (hascii : isAscii frame.tag = false) :
    s.verify rt frame = .error (.typeError nonAsciiText) := by
  have hcompare : compareDigest (sign rt.hmac s.rxMac message) frame.tag =
      .error (.typeError nonAsciiText) := by
    rw [compareDigest, hascii, if_neg fun hboth => Bool.false_ne_true hboth.2]
  rw [verify_addressed h]
  simp only [computeTag, hmessage, ok_bind, pure_ok, hcompare, error_bind]

theorem verify_forged (h : s.Addressed frame body)
    (hmessage : tagMessage frame.epoch frame.seq frame.direction body = .ok message)
    (hascii : isAscii frame.tag = true) (htag : frame.tag ≠ sign rt.hmac s.rxMac message) :
    s.verify rt frame = .error (.authenticationError "authentication tag does not verify") := by
  have hcompare : compareDigest (sign rt.hmac s.rxMac message) frame.tag = .ok false := by
    rw [compareDigest, if_pos ⟨isAscii_sign _ _ _, hascii⟩, decide_eq_false htag.symm]
  rw [verify_addressed h]
  simp only [computeTag, hmessage, ok_bind, pure_ok, hcompare, Bool.not_false, if_true]

theorem verify_stale (h : s.Addressed frame body)
    (hmessage : tagMessage frame.epoch frame.seq frame.direction body = .ok message)
    (htag : frame.tag = sign rt.hmac s.rxMac message) (hseq : frame.seq ≤ s.rxSeq) :
    s.verify rt frame =
      .error (.replayError s!"stale sequence number {frame.seq} (last seen {s.rxSeq})") := by
  rw [verify_addressed h]
  simp only [computeTag, hmessage, ok_bind, pure_ok, compareDigest_sign.mpr htag, Bool.not_true,
    Bool.false_eq_true, if_false, if_pos hseq]

end Addressed

/-- Every call of `open` ends in one of these ways. -/
theorem open_result (s : SessionState) (rt : Runtime) (frame : SealedFrame) :
    OpenResult s rt frame (s.open rt frame) := by
  by_cases hdir : frame.direction = s.rxDir
  · cases hdecode : b64decode frame.payload with
    | error exn =>
        have hverify : ∃ text, s.verify rt frame = .error (.authenticationError text) := by
          rw [verify, if_neg (not_not.mpr hdir), hdecode]
          exact ⟨_, rfl⟩
        rcases hverify with ⟨text, hverify⟩
        rw [open_of_verify_error hverify]
        exact .undecodable text hdecode
    | ok body =>
        have haddressed : s.Addressed frame body := ⟨hdir, hdecode⟩
        rcases tagMessage_cases frame.epoch frame.seq frame.direction body with
          ⟨message, hmessage⟩ | ⟨hheader, text, hfail⟩
        · by_cases htag : frame.tag = sign rt.hmac s.rxMac message
          · by_cases hseq : s.rxSeq < frame.seq
            · have hverify := verify_eq_ok_iff.mpr ⟨hdir, hdecode, ⟨message, hmessage, htag⟩, hseq⟩
              rw [open_of_verify_ok hverify]
              exact .verified haddressed hmessage htag hseq
            · have hstale := Int.not_lt.mp hseq
              rw [open_of_verify_error (verify_stale haddressed hmessage htag hstale)]
              exact .stale _ haddressed hmessage htag hstale
          · cases hascii : isAscii frame.tag with
            | true =>
                rw [open_of_verify_error (verify_forged haddressed hmessage hascii htag)]
                exact .forged _ haddressed hmessage hascii htag
            | false =>
                rw [open_of_verify_error (verify_unreadableTag haddressed hmessage hascii)]
                exact .unreadableTag _ haddressed hmessage hascii
        · have hverify : s.verify rt frame = .error (.structError text) := by
            rw [verify_addressed haddressed, computeTag, hfail]
            rfl
          rw [open_of_verify_error hverify]
          exact .headerOverflow text haddressed hheader
  · have hverify : ∃ text, s.verify rt frame = .error (.authenticationError text) := by
      rw [verify, if_pos hdir]
      exact ⟨_, rfl⟩
    rcases hverify with ⟨text, hverify⟩
    rw [open_of_verify_error hverify]
    exact .misdirected text hdir

/-- A sealed frame is opened by a state that receives with the sealing key and direction and has not
seen its number. -/
theorem open_sealed {sender : SessionState} {plaintext : Bytes} {frame : SealedFrame}
    {sender' : SessionState} (h : sender.seal rt.hmac plaintext = (.ok frame, sender'))
    (hdir : s.rxDir = sender.txDir) (hkey : s.rxMac = sender.txMac)
    (hseq : s.rxSeq < sender.txSeq + 1) :
    s.open rt frame = (.ok plaintext, { s with rxSeq := sender.txSeq + 1 }) := by
  obtain ⟨_, body, message, hbody, hmessage, rfl⟩ := seal_eq_ok h
  have hverify : s.verify rt
      { epoch := sender.epoch, seq := sender.txSeq + 1, direction := sender.txDir,
        payload := b64encode body, tag := sign rt.hmac sender.txMac message } = .ok body := by
    apply verify_eq_ok_iff.mpr
    exact ⟨hdir.symm, b64decode_b64encode body, ⟨message, hmessage, by rw [hkey]⟩, hseq⟩
  rw [open_of_verify_ok hverify, unpack_body hbody]

end SessionState

end Priestly
