/-
Module: Priestly.Proofs.SessionContract
Layer: Proofs
Purpose: What a caller of `open` may rely on. A frame that is not genuine and new leaves the state alone,
  whatever its fields hold; and the two documented exceptions are the only ones exactly when the fields
  pass through the packing of the header, the comparison of the tag and the decompressor.
Imports: Priestly.Proofs.HuffmanDecoding, Priestly.Proofs.Session, Priestly.Python.SampleRuntime
Trusted boundary: none
Main exports: SessionState.Genuine, SessionState.OpenContract, SessionState.Presentable,
  open_contract_iff
-/
import Priestly.Proofs.HuffmanDecoding
import Priestly.Proofs.Session
import Priestly.Python.SampleRuntime

namespace Priestly

open ByteCodec

/-- The two exceptions `open` is documented to raise. -/
def Exn.isRejection : Exn → Bool
  | .authenticationError _ | .replayError _ => true
  | _ => false

/-- Unpacking is refused with the documented exception, unless the body is marked as compressed and its
table cannot be read. -/
theorem unpack_rejects_iff (body : Bytes) :
    (∀ exn, unpack body = .error exn → exn.isRejection = true) ↔
      ∀ blob, body = huffmanMarker :: blob →
        Huffman.declaredLength blob = 0 ∨ Huffman.TableReadable blob := by
  cases body with
  | nil =>
      constructor
      · rintro _ blob ⟨⟩
      · rintro _ exn ⟨⟩
        rfl
  | cons marker rest =>
      rw [unpack]
      by_cases hmarker : marker = huffmanMarker
      · rw [if_pos hmarker]
        constructor
        · rintro h blob ⟨⟩
          by_contra hbad
          obtain ⟨exn, herror⟩ := (Huffman.decompress_eq_error_iff rest).mpr (not_or.mp hbad)
          obtain ⟨text, rfl⟩ := Huffman.decompress_eq_error herror
          cases h _ herror
        · intro h exn herror
          have hbad := (Huffman.decompress_eq_error_iff rest).mp ⟨exn, herror⟩
          exact absurd (h rest (by rw [hmarker])) (not_or.mpr hbad)
      · rw [if_neg hmarker]
        constructor
        · rintro _ blob ⟨⟩
          exact absurd rfl hmarker
        · intro _ exn herror
          by_cases hstored : marker = storedMarker
          · rw [if_pos hstored] at herror
            cases herror
          · rw [if_neg hstored] at herror
            cases herror
            rfl

namespace SessionState

/-- The frame comes from the other side: it is addressed with a body whose tag verifies. -/
def Genuine (s : SessionState) (rt : Runtime) (frame : SealedFrame) (body : Bytes) : Prop :=
  s.Addressed frame body ∧ ∃ message,
    tagMessage frame.epoch frame.seq frame.direction body = .ok message ∧
      frame.tag = sign rt.hmac s.rxMac message

/-- The contract of `open` on a frame: its exceptions are the documented ones, a genuine frame with a new
number is recorded, and any other frame changes nothing. -/
structure OpenContract (s : SessionState) (rt : Runtime) (frame : SealedFrame) : Prop where
  closed : ∀ exn, (s.open rt frame).1 = .error exn → exn.isRejection = true
  records : ∀ body, s.Genuine rt frame body → s.rxSeq < frame.seq →
    (s.open rt frame).2 = { s with rxSeq := frame.seq }
  undisturbed : (∀ body, s.Genuine rt frame body → frame.seq ≤ s.rxSeq) → (s.open rt frame).2 = s

/-- The fields of an addressed frame pass through the checks of `open`: the numbers fit their header
fields, the tag is ASCII, and should the frame be genuine and new, its body is not a compressed blob whose
table cannot be read. -/
def Presentable (s : SessionState) (rt : Runtime) (frame : SealedFrame) : Prop :=
  ∀ body, s.Addressed frame body →
    (0 ≤ frame.epoch ∧ frame.epoch < 2 ^ 64) ∧ (0 ≤ frame.seq ∧ frame.seq < 2 ^ 64) ∧
    isAscii frame.tag = true ∧
    (s.Genuine rt frame body → s.rxSeq < frame.seq → ∀ blob, body = huffmanMarker :: blob →
      Huffman.declaredLength blob = 0 ∨ Huffman.TableReadable blob)

variable {s : SessionState} {rt : Runtime} {frame : SealedFrame}

/-- A genuine frame has one body and one tag. -/
theorem Genuine.input_eq {body body' message : Bytes} (h : s.Genuine rt frame body)
    (haddressed : s.Addressed frame body')
    (hinput : tagMessage frame.epoch frame.seq frame.direction body' = .ok message) :
    frame.tag = sign rt.hmac s.rxMac message := by
  rcases h with ⟨hbody, same, hsame, htag⟩
  obtain rfl := hbody.body_eq haddressed
  obtain rfl := Except.ok.inj (hsame.symm.trans hinput)
  exact htag

/-- A genuine frame with a new number is recorded before its body is unpacked. -/
theorem open_records {body : Bytes} (h : s.Genuine rt frame body) (hseq : s.rxSeq < frame.seq) :
    s.open rt frame = (unpack body, { s with rxSeq := frame.seq }) := by
  rcases h with ⟨⟨hdir, hdecode⟩, hinput⟩
  exact open_of_verify_ok (verify_eq_ok_iff.mpr ⟨hdir, hdecode, hinput, hseq⟩)

/-- A frame that is not genuine or not new leaves the state alone. -/
theorem open_undisturbed (h : ∀ body, s.Genuine rt frame body → frame.seq ≤ s.rxSeq) :
    (s.open rt frame).2 = s := by
  have hresult := s.open_result rt frame
  generalize s.open rt frame = result at hresult ⊢
  cases hresult with
  | verified addressed input tag seq =>
      exact absurd seq (Int.not_lt.mpr (h _ ⟨addressed, _, input, tag⟩))
  | _ => rfl

/-- The exceptions of `open` are the documented ones exactly for presentable frames. -/
theorem open_closed_iff :
    (∀ exn, (s.open rt frame).1 = .error exn → exn.isRejection = true) ↔ s.Presentable rt frame := by
  have hresult := s.open_result rt frame
  generalize s.open rt frame = result at hresult ⊢
  constructor
  · intro h body haddressed
    cases hresult with
    | misdirected text direction => exact absurd haddressed.1 direction
    | undecodable text payload => cases haddressed.2.symm.trans payload
    | headerOverflow text _ _ => cases h _ rfl
    | unreadableTag text _ _ _ => cases h _ rfl
    | forged text addressed input readable tag =>
        obtain rfl := haddressed.body_eq addressed
        obtain ⟨hepoch, hseq, _⟩ := tagMessage_eq_ok input
        refine ⟨hepoch, hseq, readable, ?_⟩
        intro hgenuine
        exact absurd (hgenuine.input_eq haddressed input) tag
    | stale text addressed input tag seq =>
        obtain rfl := haddressed.body_eq addressed
        obtain ⟨hepoch, hseq, _⟩ := tagMessage_eq_ok input
        refine ⟨hepoch, hseq, tag ▸ isAscii_sign _ _ _, ?_⟩
        intro _ hfresh
        exact absurd hfresh (Int.not_lt.mpr seq)
    | verified addressed input tag seq =>
        obtain rfl := haddressed.body_eq addressed
        obtain ⟨hepoch, hseq, _⟩ := tagMessage_eq_ok input
        refine ⟨hepoch, hseq, tag ▸ isAscii_sign _ _ _, ?_⟩
        intro _ _
        exact (unpack_rejects_iff body).mp h
  · intro h
    cases hresult with
    | headerOverflow text addressed header =>
        obtain ⟨hepoch, hseq, _⟩ := h _ addressed
        exact absurd ⟨hepoch, hseq⟩ header
    | unreadableTag text addressed _ tag =>
        obtain ⟨_, _, hascii, _⟩ := h _ addressed
        rw [tag] at hascii
        cases hascii
    | verified addressed input tag seq =>
        obtain ⟨_, _, _, hbody⟩ := h _ addressed
        exact (unpack_rejects_iff _).mpr (hbody ⟨addressed, _, input, tag⟩ seq)
    | misdirected text _ =>
        rintro exn ⟨⟩
        rfl
    | undecodable text _ =>
        rintro exn ⟨⟩
        rfl
    | forged text _ _ _ _ =>
        rintro exn ⟨⟩
        rfl
    | stale text _ _ _ _ =>
        rintro exn ⟨⟩
        rfl

/-- For every state and every frame, `open` keeps its contract exactly when the frame is presentable; and
what it says about the state it keeps for every frame. -/
theorem open_contract_iff (s : SessionState) (rt : Runtime) (frame : SealedFrame) :
    s.OpenContract rt frame ↔ s.Presentable rt frame := by
  constructor
  · intro h
    exact open_closed_iff.mp h.closed
  · intro h
    constructor
    · exact open_closed_iff.mpr h
    · intro body hgenuine hseq
      rw [open_records hgenuine hseq]
    · exact open_undisturbed

/-- The state of a server that has received nothing. -/
def freshServer : SessionState :=
  SessionState.new { clientWrite := [], serverWrite := [], clientMac := [], serverMac := [] } false true

/-- A frame for it whose tag is the letter e with an acute accent. -/
def accentedFrame : SealedFrame :=
  { epoch := 0, seq := 1, direction := "client", payload := "AA==", tag := "é" }

/-- Such a frame raises `TypeError`, which `open` is not documented to raise. -/
theorem open_raises_typeError :
    freshServer.open (sampleRuntime hmacSha256) accentedFrame =
        (.error (.typeError nonAsciiText), freshServer) ∧
      ¬ freshServer.OpenContract (sampleRuntime hmacSha256) accentedFrame := by
  have haddressed : freshServer.Addressed accentedFrame [0] := ⟨rfl, by decide⟩
  have hinput : tagMessage 0 1 "client" [0] =
      .ok (toBytesBE 8 0 ++ toBytesBE 8 1 ++ [directionByte "client"] ++ [0]) := by
    apply tagMessage_ok
    · decide
    · decide
  have hopen : freshServer.open (sampleRuntime hmacSha256) accentedFrame =
      (.error (.typeError nonAsciiText), freshServer) :=
    open_of_verify_error (verify_unreadableTag haddressed hinput (by decide))
  constructor
  · exact hopen
  · intro hcontract
    have hrejection := hcontract.closed (.typeError nonAsciiText) (by rw [hopen])
    cases hrejection

end SessionState

end Priestly
