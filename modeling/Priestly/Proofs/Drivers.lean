/-
Module: Priestly.Proofs.Drivers
Layer: Proofs
Purpose: One specification lemma for each part of the handshake drivers: which texts parse to which
  element, how a read resolves in a run, and what each part of a driver does with a frame.
Imports: Priestly.Protocol.Covenant, Priestly.Proofs.CovenantAlgebra
Trusted boundary: none
Main exports: ModpGroup.InRange, parseElement_inRange, parseElement_elementHex,
  clientOnChallenge_cases, clientOnResult_cases, serverOnCommit_cases, serverOnConfirm_cases
-/
import Priestly.Protocol.Covenant
import Priestly.Proofs.CovenantAlgebra

namespace Priestly

open ByteCodec Interaction

/-! ### Wire elements -/

section Elements

variable {rt : Runtime} {grp : ModpGroup}

/-- The elements the drivers accept: neither zero, one, nor minus one. -/
def ModpGroup.InRange (grp : ModpGroup) (x : grp.Element) : Prop :=
  1 < x.val ∧ x.val + 1 < grp.P

instance (x : grp.Element) : Decidable (grp.InRange x) := inferInstanceAs (Decidable (_ ∧ _))

/-- An accepted text spells an element of the range. -/
theorem parseElement_inRange {text : String} {x : grp.Element}
    (h : parseElement rt grp text = .ok x) : grp.InRange x ∧ intBase16 text = some (x.val : Int) := by
  rw [parseElement] at h
  cases hvalue : intBase16 text with
  | none =>
      rw [hvalue] at h
      cases h
  | some value =>
      rw [hvalue] at h
      by_cases hrange : 1 < value ∧ value < (grp.P : Int) - 1
      · simp only [dif_pos hrange, Except.ok.injEq] at h
        have hval : x.val = value.toNat := (congrArg Fin.val h).symm
        refine ⟨⟨?_, ?_⟩, ?_⟩
        · omega
        · omega
        · rw [hval, Int.toNat_of_nonneg (by omega)]
      · simp only [dif_neg hrange] at h
        cases h

/-- A text that is not accepted raises a `CovenantError`. -/
theorem parseElement_error {text : String} {exn : Exn}
    (h : parseElement rt grp text = .error exn) : ∃ reason, exn = .covenantError reason := by
  rw [parseElement] at h
  cases hvalue : intBase16 text with
  | none =>
      rw [hvalue] at h
      exact ⟨_, (Except.error.inj h).symm⟩
  | some value =>
      rw [hvalue] at h
      by_cases hrange : 1 < value ∧ value < (grp.P : Int) - 1
      · simp only [dif_pos hrange] at h
        cases h
      · simp only [dif_neg hrange] at h
        exact ⟨_, (Except.error.inj h).symm⟩

theorem toBytes_ne_nil (x : grp.Element) : grp.toBytes x ≠ [] := by
  have hP := grp.P_le
  have hone := grp.one_lt_P
  intro hnil
  have hlength := grp.length_toBytes x
  rw [hnil, List.length_nil] at hlength
  rw [← hlength, pow_zero] at hP
  omega

/-- The wire form of an element is read back, if the element is in range. -/
theorem parseElement_elementHex {x : grp.Element} (h : grp.InRange x) :
    parseElement rt grp (elementHex grp x) = .ok x := by
  obtain ⟨hlow, hhigh⟩ := h
  have hvalue : intBase16 (elementHex grp x) = some (x.val : Int) := by
    rw [elementHex, intBase16_hexString (toBytes_ne_nil x), grp.ofBytesBE_toBytes]
  rw [parseElement, hvalue]
  have hrange : 1 < (x.val : Int) ∧ (x.val : Int) < (grp.P : Int) - 1 := by omega
  simp only [dif_pos hrange, Int.toNat_natCast]

/-- An element whose wire form is accepted is in range. -/
theorem inRange_of_parseElement_elementHex {x y : grp.Element}
    (h : parseElement rt grp (elementHex grp x) = .ok y) : grp.InRange x := by
  obtain ⟨hrange, hvalue⟩ := parseElement_inRange h
  rw [elementHex, intBase16_hexString (toBytes_ne_nil x), grp.ofBytesBE_toBytes] at hvalue
  have hsame : x = y := Fin.ext (by simpa using hvalue)
  rwa [hsame]

end Elements

/-! ### Runs of the shared parts -/

section Runs

variable {rt : Runtime} {grp : ModpGroup} {α : Type}

/-- A read as a constructor: the message is parsed before the driver goes on. -/
theorem recvFrame_bind (k : Frame → Driver α) :
    (recvFrame rt >>= k) = Program.recv fun
      | .ok message => Program.lift (parseMessage rt message) >>= k
      | .error exn => .raise exn := by
  show Program.recv _ = Program.recv _
  congr 1
  funext input
  cases input with
  | ok message => rfl
  | error exn => rfl

@[simp] theorem runLive_recvFrame_nil (k : Frame → Driver α) :
    (recvFrame rt >>= k).runLive [] = ⟨[], .waiting⟩ := by
  rw [recvFrame_bind]
  rfl

theorem runLive_recvFrame_ok {message : WsMessage} {frame : Frame}
    (h : parseMessage rt message = .ok frame) (k : Frame → Driver α) (rest : List WsMessage) :
    (recvFrame rt >>= k).runLive (message :: rest) = (k frame).runLive rest := by
  rw [recvFrame_bind]
  show (Program.lift (parseMessage rt message) >>= k).runLive rest = _
  rw [h]
  rfl

theorem runLive_recvFrame_error {message : WsMessage} {exn : Exn}
    (h : parseMessage rt message = .error exn) (k : Frame → Driver α) (rest : List WsMessage) :
    (recvFrame rt >>= k).runLive (message :: rest) = ⟨[], .raised exn⟩ := by
  rw [recvFrame_bind]
  show (Program.lift (parseMessage rt message) >>= k).runLive rest = _
  rw [h]
  rfl

@[simp] theorem runLive_fail (reason : String) (inputs : List WsMessage) :
    (fail reason : Driver α).runLive inputs =
      ⟨[.authFail reason], .raised (.covenantError reason)⟩ := rfl

end Runs

/-! ### What each part of a driver does with a frame -/

section Parts

variable {rt : Runtime} {grp : ModpGroup}

/-- A comparison with a hexadecimal string: it fails on text that is not ASCII. -/
theorem compareDigest_hexString (bytes : Bytes) (text : String) :
    compareDigest (hexString bytes) text =
      if isAscii text then .ok (hexString bytes = text) else .error (.typeError nonAsciiText) := by
  rw [compareDigest]
  by_cases h : isAscii text = true
  · rw [if_pos ⟨isAscii_hexString bytes, h⟩, if_pos h]
  · rw [if_neg fun hboth => h hboth.2, if_neg h]

/-- The confirmation the client expects. -/
theorem clientOnResult_expected (shared : grp.Element) (commit : Bytes) (publicB : grp.Element) :
    clientOnResult rt grp shared commit publicB
        (.authOk (hexString (confirmMac grp rt.hmac shared commit serverRole publicB))) =
      .ok (.new (sessionKeys grp rt.hmac shared) true true) := by
  simp [clientOnResult, compareDigest_hexString, isAscii_hexString]

/-- The client's verdict: it rejects with a `CovenantError`, raises `TypeError` on a confirmation that
is not ASCII, or accepts the one confirmation it expects. -/
theorem clientOnResult_cases (rt : Runtime) (grp : ModpGroup) (shared : grp.Element)
    (commit : Bytes) (publicB : grp.Element) (frame : Frame) :
    ((∃ reason, clientOnResult rt grp shared commit publicB frame = .error (.covenantError reason)) ∧
      ∀ confirmS, frame = .authOk confirmS → isAscii confirmS = true) ∨
    (∃ confirmS, frame = .authOk confirmS ∧ isAscii confirmS = false ∧
      clientOnResult rt grp shared commit publicB frame = .error (.typeError nonAsciiText)) ∨
    (frame = .authOk (hexString (confirmMac grp rt.hmac shared commit serverRole publicB)) ∧
      clientOnResult rt grp shared commit publicB frame =
        .ok (.new (sessionKeys grp rt.hmac shared) true true)) := by
  cases frame with
  | authOk confirmS =>
      by_cases hascii : isAscii confirmS = true
      · by_cases hsame : hexString (confirmMac grp rt.hmac shared commit serverRole publicB) = confirmS
        · refine .inr (.inr ⟨by rw [hsame], ?_⟩)
          rw [← hsame, clientOnResult_expected]
        · refine .inl ⟨⟨"server key confirmation failed (wrong password or MITM)", ?_⟩, ?_⟩
          · simp [clientOnResult, compareDigest_hexString, hascii, hsame]
          · rintro _ ⟨⟩
            exact hascii
      · refine .inr (.inl ⟨confirmS, rfl, by simpa using hascii, ?_⟩)
        simp only [clientOnResult, compareDigest_hexString, if_neg hascii]
        rfl
  | _ => exact .inl ⟨⟨_, rfl⟩, fun _ h => by cases h⟩

/-- The client once it has recovered the server's element: it sends its confirmation and reads the
verdict. -/
def clientConfirms (rt : Runtime) (grp : ModpGroup) (a : Nat) (publicB : grp.Element) :
    Driver SessionState := do
  let publicA := publicElement grp a
  let commit := commitDigest grp publicA
  let shared := sharedSecret grp publicB a
  Program.emit (.covenantConfirm (elementHex grp publicA)
    (hexString (confirmMac grp rt.hmac shared commit clientRole publicA)))
  Program.lift (clientOnResult rt grp shared commit publicB (← recvFrame rt))

/-- A challenge whose element is recovered takes the client to its confirmation. -/
theorem clientOnChallenge_ok {a : Nat} {password : Bytes} {text : String}
    {maskedB publicB : grp.Element} (hM : parseElement rt grp text = .ok maskedB)
    (hB : unmask grp maskedB (secretToElement grp rt.hmac password) = .ok publicB) :
    clientOnChallenge rt grp a password (.covenantChallenge text) =
      clientConfirms rt grp a publicB := by
  simp only [clientOnChallenge, hM, hB, Program.lift_ok, Program.done_bind, clientConfirms]

/-- The client on any frame: a `CovenantError`, a `ValueError` from the modular inverse, or on to its
confirmation. -/
theorem clientOnChallenge_cases (rt : Runtime) (grp : ModpGroup) (a : Nat) (password : Bytes)
    (frame : Frame) :
    ((∃ reason, clientOnChallenge rt grp a password frame = .raise (.covenantError reason)) ∧
      ∀ text maskedB, frame = .covenantChallenge text → parseElement rt grp text ≠ .ok maskedB) ∨
    (∃ text maskedB exn, frame = .covenantChallenge text ∧ parseElement rt grp text = .ok maskedB ∧
      unmask grp maskedB (secretToElement grp rt.hmac password) = .error exn ∧
      clientOnChallenge rt grp a password frame = .raise exn) ∨
    (∃ text maskedB publicB, frame = .covenantChallenge text ∧
      parseElement rt grp text = .ok maskedB ∧
      unmask grp maskedB (secretToElement grp rt.hmac password) = .ok publicB ∧
      clientOnChallenge rt grp a password frame = clientConfirms rt grp a publicB) := by
  cases frame with
  | covenantChallenge text =>
      cases hM : parseElement rt grp text with
      | error exn =>
          obtain ⟨reason, rfl⟩ := parseElement_error hM
          refine .inl ⟨⟨reason, ?_⟩, ?_⟩
          · simp only [clientOnChallenge, hM, Program.lift_error, Program.raise_bind]
          · rintro _ maskedB ⟨⟩ hok
            rw [hM] at hok
            cases hok
      | ok maskedB =>
          cases hB : unmask grp maskedB (secretToElement grp rt.hmac password) with
          | error exn =>
              refine .inr (.inl ⟨text, maskedB, exn, rfl, hM, hB, ?_⟩)
              simp only [clientOnChallenge, hM, hB, Program.lift_ok, Program.done_bind,
                Program.lift_error, Program.raise_bind]
          | ok publicB =>
              exact .inr (.inr ⟨text, maskedB, publicB, rfl, hM, hB, clientOnChallenge_ok hM hB⟩)
  | _ => exact .inl ⟨⟨_, rfl⟩, fun _ _ h => by cases h⟩

/-- The tag the server expects in a confirmation. -/
def expectedConfirm (rt : Runtime) (grp : ModpGroup) (b : Nat) (commit : Bytes)
    (publicA : grp.Element) : String :=
  hexString (confirmMac grp rt.hmac (sharedSecret grp publicA b) commit clientRole publicA)

/-- A confirmation with the expected tag makes the server answer `AUTH_OK` and return. -/
theorem serverOnConfirm_ok {b : Nat} {commit : Bytes} {text : String} {publicA : grp.Element}
    (hA : parseElement rt grp text = .ok publicA) (hcommit : commitDigest grp publicA = commit) :
    serverOnConfirm rt grp b commit (.covenantConfirm text (expectedConfirm rt grp b commit publicA)) =
      (do
        Program.emit (.authOk (hexString (confirmMac grp rt.hmac (sharedSecret grp publicA b) commit
          serverRole (publicElement grp b))))
        return .new (sessionKeys grp rt.hmac (sharedSecret grp publicA b)) false true) := by
  simp only [serverOnConfirm, parseElementOrFail, hA, Program.pure_bind, hcommit, expectedConfirm,
    compareDigest_hexString, isAscii_hexString]
  simp

/-- The server on any frame after the challenge: it fails in the documented way, raises `TypeError` on
a confirmation that is not ASCII, or accepts the one confirmation it expects. -/
theorem serverOnConfirm_cases (rt : Runtime) (grp : ModpGroup) (b : Nat) (commit : Bytes)
    (frame : Frame) (inputs : List WsMessage) :
    ((∃ reason, (serverOnConfirm rt grp b commit frame).runLive inputs =
        ⟨[.authFail reason], .raised (.covenantError reason)⟩) ∧
      ∀ text confirmC publicA, frame = .covenantConfirm text confirmC →
        parseElement rt grp text = .ok publicA → commitDigest grp publicA = commit →
        isAscii confirmC = true) ∨
    (∃ text confirmC publicA, frame = .covenantConfirm text confirmC ∧
      parseElement rt grp text = .ok publicA ∧ commitDigest grp publicA = commit ∧
      isAscii confirmC = false ∧
      (serverOnConfirm rt grp b commit frame).runLive inputs =
        ⟨[], .raised (.typeError nonAsciiText)⟩) ∨
    (∃ text publicA, frame = .covenantConfirm text (expectedConfirm rt grp b commit publicA) ∧
      parseElement rt grp text = .ok publicA ∧ commitDigest grp publicA = commit ∧
      (serverOnConfirm rt grp b commit frame).runLive inputs =
        ⟨[.authOk (hexString (confirmMac grp rt.hmac (sharedSecret grp publicA b) commit serverRole
            (publicElement grp b)))],
          .returned (.new (sessionKeys grp rt.hmac (sharedSecret grp publicA b)) false true)⟩) := by
  cases frame with
  | covenantConfirm text confirmC =>
      cases hA : parseElement rt grp text with
      | error exn =>
          obtain ⟨reason, rfl⟩ := parseElement_error hA
          refine .inl ⟨⟨reason, ?_⟩, ?_⟩
          · simp only [serverOnConfirm, parseElementOrFail, hA]
            rfl
          · rintro _ _ publicA ⟨⟩ hok
            rw [hA] at hok
            cases hok
      | ok publicA =>
          by_cases hcommit : commitDigest grp publicA = commit
          · by_cases hascii : isAscii confirmC = true
            · by_cases hsame : expectedConfirm rt grp b commit publicA = confirmC
              · refine .inr (.inr ⟨text, publicA, by rw [hsame], hA, hcommit, ?_⟩)
                rw [← hsame, serverOnConfirm_ok hA hcommit]
                rfl
              · refine .inl ⟨⟨"client key confirmation failed", ?_⟩, ?_⟩
                · rw [expectedConfirm] at hsame
                  simp [serverOnConfirm, parseElementOrFail, hA, hcommit, compareDigest_hexString,
                    hascii, hsame]
                · rintro _ _ _ ⟨⟩ _ _
                  exact hascii
            · refine .inr (.inl ⟨text, confirmC, publicA, rfl, hA, hcommit, by simpa using hascii, ?_⟩)
              simp only [serverOnConfirm, parseElementOrFail, hA, Program.pure_bind, hcommit,
                compareDigest_hexString, if_neg hascii, ne_eq, not_true_eq_false, if_false]
              rfl
          · refine .inl ⟨⟨"commit does not match revealed element", ?_⟩, ?_⟩
            · simp [serverOnConfirm, parseElementOrFail, hA, hcommit]
            · rintro _ _ other ⟨⟩ hok hother
              rw [hA] at hok
              rw [← Except.ok.inj hok] at hother
              exact absurd hother hcommit
  | _ => exact .inl ⟨⟨_, rfl⟩, fun _ _ _ h => by cases h⟩

/-- The server once it has read a commitment: it sends its challenge and reads the confirmation. -/
def serverChallenges (rt : Runtime) (grp : ModpGroup) (b : Nat) (password commit : Bytes) :
    Driver SessionState := do
  Program.emit (.covenantChallenge (elementHex grp
    (mask grp (publicElement grp b) (secretToElement grp rt.hmac password))))
  serverOnConfirm rt grp b commit (← recvFrame rt)

/-- A commitment of twenty octets takes the server to its challenge. -/
theorem serverOnCommit_ok {b : Nat} {password commit : Bytes} {text : String}
    (h : bytesFromHex text.toList = some commit) (hlength : commit.length = 20) :
    serverOnCommit rt grp b password (.covenantCommit text) =
      serverChallenges rt grp b password commit := by
  simp only [serverOnCommit, h, hlength, ne_eq, not_true_eq_false, if_false, serverChallenges]

/-- The server on any first frame: it fails in the documented way or goes on to its challenge. -/
theorem serverOnCommit_cases (rt : Runtime) (grp : ModpGroup) (b : Nat) (password : Bytes)
    (frame : Frame) :
    ((∃ reason, serverOnCommit rt grp b password frame = fail reason) ∧
      ∀ text commit, frame = .covenantCommit text → bytesFromHex text.toList = some commit →
        commit.length ≠ 20) ∨
    (∃ text commit, frame = .covenantCommit text ∧ bytesFromHex text.toList = some commit ∧
      commit.length = 20 ∧
      serverOnCommit rt grp b password frame = serverChallenges rt grp b password commit) := by
  cases frame with
  | covenantCommit text =>
      cases hcommit : bytesFromHex text.toList with
      | none =>
          refine .inl ⟨⟨"malformed commit", ?_⟩, ?_⟩
          · simp only [serverOnCommit, hcommit]
          · rintro _ commit ⟨⟩ hsome
            rw [hcommit] at hsome
            cases hsome
      | some commit =>
          by_cases hlength : commit.length = 20
          · exact .inr ⟨text, commit, rfl, hcommit, hlength, serverOnCommit_ok hcommit hlength⟩
          · refine .inl ⟨⟨"malformed commit", ?_⟩, ?_⟩
            · simp only [serverOnCommit, hcommit, ne_eq, hlength, not_false_eq_true, if_true]
            · rintro _ other ⟨⟩ hsome
              rw [hcommit] at hsome
              rwa [← Option.some.inj hsome]
  | _ => exact .inl ⟨⟨_, rfl⟩, fun _ _ h => by cases h⟩

end Parts

end Priestly
