/-
Module: Priestly.Proofs.DriverErrors
Layer: Proofs
Purpose: When the handshake drivers fail in the documented way, for every sequence of messages a peer
  can send. Reading a frame and comparing a confirmation are not covered by the drivers' error
  handling: text that is no packet, bytes that are no UTF-8 and a confirmation that is not ASCII leave
  the drivers as other exceptions. Apart from these inputs the documentation holds.
Imports: Priestly.Proofs.DriverRuns, Priestly.Python.SampleRuntime
Trusted boundary: none
Main exports: ServerDocumented, ClientDocumented, drivers_documented_iff
-/
import Priestly.Proofs.DriverRuns
import Priestly.Python.SampleRuntime

namespace Priestly

open ByteCodec Interaction

/-- Whether a frame is `AUTH_OK`. -/
def Frame.isAuthOk : Frame → Bool
  | .authOk _ => true
  | _ => false

/-- Whether a frame is `AUTH_FAIL`. -/
def Frame.isAuthFail : Frame → Bool
  | .authFail _ => true
  | _ => false

/-- The documented ends of the server: a session after exactly one `AUTH_OK`, or a `CovenantError`
after exactly one `AUTH_FAIL`. A server that has not been sent its two messages may still wait. -/
def ServerDocumented (inputs : List WsMessage) (trace : Program.Trace Frame Exn SessionState) : Prop :=
  (trace.outcome = .waiting ∧ inputs.length < 2) ∨
  (∃ session, trace.outcome = .returned session ∧ trace.sent.countP Frame.isAuthOk = 1 ∧
    trace.sent.countP Frame.isAuthFail = 0) ∨
  (∃ reason, trace.outcome = .raised (.covenantError reason) ∧
    trace.sent.countP Frame.isAuthFail = 1 ∧ trace.sent.countP Frame.isAuthOk = 0)

/-- The documented ends of the client: a session or a `CovenantError`. -/
def ClientDocumented (inputs : List WsMessage) (trace : Program.Trace Frame Exn SessionState) : Prop :=
  (trace.outcome = .waiting ∧ inputs.length < 2) ∨
  (∃ session, trace.outcome = .returned session) ∨
  (∃ reason, trace.outcome = .raised (.covenantError reason))

section Conditions

variable (rt : Runtime) (grp : ModpGroup)

/-- The message is a packet of this protocol version. -/
def Parses (message : WsMessage) : Prop := ∃ frame, parseMessage rt message = .ok frame

/-- The messages the server reads are packets, and a confirmation that reveals the committed element
is ASCII. -/
def ServerReadable : List WsMessage → Prop
  | [] => True
  | message :: rest =>
      Parses rt message ∧ ∀ commit, ReadsCommit rt message commit →
        ∀ message' ∈ rest.head?, Parses rt message' ∧
          ∀ publicA confirmC, ReadsConfirm rt grp commit message' publicA confirmC →
            isAscii confirmC = true

/-- The messages the client reads are packets, the password element has an inverse, and the server's
confirmation is ASCII. -/
def ClientReadable (password : Bytes) : List WsMessage → Prop
  | [] => True
  | message :: rest =>
      Parses rt message ∧ ∀ maskedB, ReadsElement rt grp message maskedB →
        Nat.gcd (secretToElement grp rt.hmac password).val grp.P = 1 ∧
        ∀ message' ∈ rest.head?, Parses rt message' ∧
          ∀ confirmS, parseMessage rt message' = .ok (.authOk confirmS) → isAscii confirmS = true

end Conditions

section Runs

variable {rt : Runtime} {grp : ModpGroup}

private theorem not_covenantError_of_parse {message : WsMessage} {exn : Exn}
    (h : parseMessage rt message = .error exn) (reason : String) : exn ≠ .covenantError reason := by
  rintro rfl
  cases parseMessage_error h

private theorem not_parses {message : WsMessage} {exn : Exn}
    (h : parseMessage rt message = .error exn) : ¬ Parses rt message := by
  rintro ⟨frame, hframe⟩
  rw [h] at hframe
  cases hframe

private theorem parses_of_readsCommit {message : WsMessage} {commit : Bytes}
    (h : ReadsCommit rt message commit) : Parses rt message := by
  obtain ⟨text, hparse, _⟩ := h
  exact ⟨_, hparse⟩

/-- An exception other than `CovenantError` is not a documented end of the server. -/
private theorem not_serverDocumented {inputs : List WsMessage} {sent : List Frame} {exn : Exn}
    (h : ∀ reason, exn ≠ .covenantError reason) : ¬ ServerDocumented inputs ⟨sent, .raised exn⟩ := by
  rintro (⟨hwait, _⟩ | ⟨session, hreturn, _⟩ | ⟨reason, hraise, _⟩)
  · cases hwait
  · cases hreturn
  · exact h reason (by simpa using hraise)

/-- An exception other than `CovenantError` is not a documented end of the client. -/
private theorem not_clientDocumented {inputs : List WsMessage} {sent : List Frame} {exn : Exn}
    (h : ∀ reason, exn ≠ .covenantError reason) : ¬ ClientDocumented inputs ⟨sent, .raised exn⟩ := by
  rintro (⟨hwait, _⟩ | ⟨session, hreturn⟩ | ⟨reason, hraise⟩)
  · cases hwait
  · cases hreturn
  · exact h reason (by simpa using hraise)

/-- A run of the server ends as documented exactly on readable input. -/
theorem serverRun_documented_iff {b : Nat} {password : Bytes} {inputs : List WsMessage}
    {trace : Program.Trace Frame Exn SessionState} (h : ServerRun rt grp b password inputs trace) :
    ServerDocumented inputs trace ↔ ServerReadable rt grp inputs := by
  cases h with
  | waitsForCommit => exact ⟨fun _ => trivial, fun _ => .inl ⟨rfl, by simp⟩⟩
  | commitUnparsed hparse =>
      refine ⟨fun hdoc => ?_, fun hread => ?_⟩
      · exact absurd hdoc (not_serverDocumented (not_covenantError_of_parse hparse))
      · exact absurd hread.1 (not_parses hparse)
  | commitRejected hparse hreject =>
      refine ⟨fun _ => ?_, fun _ => ?_⟩
      · exact ⟨⟨_, hparse⟩, fun commit hreads => absurd hreads (hreject commit)⟩
      · exact .inr (.inr ⟨_, rfl, by simp [Frame.isAuthFail], by simp [Frame.isAuthOk]⟩)
  | waitsForConfirm hreads =>
      refine ⟨fun _ => ?_, fun _ => .inl ⟨rfl, by simp⟩⟩
      exact ⟨parses_of_readsCommit hreads, fun _ _ message' hmem => by simp at hmem⟩
  | confirmUnparsed hreads hparse =>
      refine ⟨fun hdoc => ?_, fun hread => ?_⟩
      · exact absurd hdoc (not_serverDocumented (not_covenantError_of_parse hparse))
      · exact absurd (hread.2 _ hreads _ rfl).1 (not_parses hparse)
  | confirmRejected hreads hparse hascii =>
      refine ⟨fun _ => ⟨parses_of_readsCommit hreads, ?_⟩, fun _ => ?_⟩
      · intro commit hcommit message' hmem
        rw [← readsCommit_unique hreads hcommit]
        obtain rfl := Option.some.inj hmem
        exact ⟨⟨_, hparse⟩, hascii⟩
      · exact .inr (.inr ⟨_, rfl, by simp [challengeFrame, Frame.isAuthFail],
          by simp [challengeFrame, Frame.isAuthOk]⟩)
  | confirmNotAscii hreads hconfirm hascii =>
      refine ⟨fun hdoc => ?_, fun hread => ?_⟩
      · exact absurd hdoc (not_serverDocumented fun reason hsame => by cases hsame)
      · have := (hread.2 _ hreads _ rfl).2 _ _ hconfirm
        rw [hascii] at this
        cases this
  | accepted hreads hconfirm =>
      refine ⟨fun _ => ⟨parses_of_readsCommit hreads, ?_⟩, fun _ => ?_⟩
      · intro commit hcommit message' hmem
        obtain rfl := Option.some.inj hmem
        obtain ⟨text, hparse, _⟩ := hconfirm
        refine ⟨⟨_, hparse⟩, ?_⟩
        rintro publicA confirmC ⟨text', hparse', _⟩
        rw [hparse] at hparse'
        cases hparse'
        exact isAscii_hexString _
      · exact .inr (.inl ⟨_, rfl, by simp [challengeFrame, authOkFrame, Frame.isAuthOk],
          by simp [challengeFrame, authOkFrame, Frame.isAuthFail]⟩)

/-- Unmasking succeeds exactly where the password element has an inverse. -/
theorem unmask_ok_iff (maskedB pe : grp.Element) :
    (∃ publicB, unmask grp maskedB pe = .ok publicB) ↔ Nat.gcd pe.val grp.P = 1 := by
  by_cases h : Nat.gcd pe.val grp.P = 1
  · obtain ⟨x, _, hok⟩ := unmask_eq_ok maskedB h
    exact ⟨fun _ => h, fun _ => ⟨_, hok⟩⟩
  · refine ⟨fun ⟨publicB, hok⟩ => ?_, fun hgcd => absurd hgcd h⟩
    rw [unmask_eq_error h] at hok
    cases hok

/-- The one exception of unmasking. -/
private theorem unmask_error {maskedB pe : grp.Element} {exn : Exn}
    (h : unmask grp maskedB pe = .error exn) :
    exn = .valueError "no modular inverse exists" ∧ Nat.gcd pe.val grp.P ≠ 1 := by
  by_cases hgcd : Nat.gcd pe.val grp.P = 1
  · obtain ⟨_, _, hok⟩ := unmask_eq_ok maskedB hgcd
    rw [hok] at h
    cases h
  · rw [unmask_eq_error hgcd] at h
    exact ⟨(Except.error.inj h).symm, hgcd⟩

/-- What a client knows once it has recovered the server's element. -/
private theorem clientReadable_of_result {password : Bytes} {message message' : WsMessage}
    {rest : List WsMessage} {publicB : grp.Element}
    (h : ReadsChallenge rt grp password message publicB) (hparse : Parses rt message')
    (hascii : ∀ confirmS, parseMessage rt message' = .ok (.authOk confirmS) → isAscii confirmS = true) :
    ClientReadable rt grp password (message :: message' :: rest) := by
  obtain ⟨maskedB, ⟨text, htext, hM⟩, hB⟩ := h
  refine ⟨⟨_, htext⟩, ?_⟩
  intro _ _
  refine ⟨(unmask_ok_iff maskedB _).mp ⟨publicB, hB⟩, ?_⟩
  intro other hmem
  obtain rfl := Option.some.inj hmem
  exact ⟨hparse, hascii⟩

/-- A run of the client ends as documented exactly on readable input. -/
theorem clientRun_documented_iff {a : Nat} {password : Bytes} {inputs : List WsMessage}
    {trace : Program.Trace Frame Exn SessionState} (h : ClientRun rt grp a password inputs trace) :
    ClientDocumented inputs trace ↔ ClientReadable rt grp password inputs := by
  cases h with
  | waitsForChallenge => exact ⟨fun _ => trivial, fun _ => .inl ⟨rfl, by simp⟩⟩
  | challengeUnparsed hparse =>
      refine ⟨fun hdoc => ?_, fun hread => ?_⟩
      · exact absurd hdoc (not_clientDocumented (not_covenantError_of_parse hparse))
      · exact absurd hread.1 (not_parses hparse)
  | challengeRejected hparse hreject =>
      refine ⟨fun _ => ?_, fun _ => .inr (.inr ⟨_, rfl⟩)⟩
      exact ⟨⟨_, hparse⟩, fun maskedB hreads => absurd hreads (hreject maskedB)⟩
  | notInvertible hreads hunmask =>
      obtain ⟨rfl, hgcd⟩ := unmask_error hunmask
      refine ⟨fun hdoc => ?_, fun hread => ?_⟩
      · exact absurd hdoc (not_clientDocumented fun reason hsame => by cases hsame)
      · exact absurd (hread.2 _ hreads).1 hgcd
  | waitsForResult hreads =>
      obtain ⟨maskedB, ⟨text, htext, hM⟩, hB⟩ := hreads
      refine ⟨fun _ => ⟨⟨_, htext⟩, ?_⟩, fun _ => .inl ⟨rfl, by simp⟩⟩
      intro _ _
      exact ⟨(unmask_ok_iff maskedB _).mp ⟨_, hB⟩, fun _ hmem => by simp at hmem⟩
  | resultUnparsed hreads hparse =>
      obtain ⟨maskedB, hM, hB⟩ := hreads
      refine ⟨fun hdoc => ?_, fun hread => ?_⟩
      · exact absurd hdoc (not_clientDocumented (not_covenantError_of_parse hparse))
      · exact absurd ((hread.2 _ hM).2 _ rfl).1 (not_parses hparse)
  | resultRejected hreads hparse hascii =>
      refine ⟨fun _ => ?_, fun _ => .inr (.inr ⟨_, rfl⟩)⟩
      refine clientReadable_of_result hreads ⟨_, hparse⟩ ?_
      intro confirmS hsame
      rw [hparse] at hsame
      exact hascii confirmS (Except.ok.inj hsame)
  | resultNotAscii hreads hparse hascii =>
      obtain ⟨maskedB, hM, hB⟩ := hreads
      refine ⟨fun hdoc => ?_, fun hread => ?_⟩
      · exact absurd hdoc (not_clientDocumented fun reason hsame => by cases hsame)
      · have := ((hread.2 _ hM).2 _ rfl).2 _ hparse
        rw [hascii] at this
        cases this
  | accepted hreads hparse =>
      refine ⟨fun _ => ?_, fun _ => .inr (.inl ⟨_, rfl⟩)⟩
      refine clientReadable_of_result hreads ⟨_, hparse⟩ ?_
      intro confirmS hsame
      rw [hparse] at hsame
      cases hsame
      exact isAscii_hexString _

end Runs

/-- For every sequence of messages, the server ends as documented exactly when the messages it reads
are packets and a confirmation of the committed element is ASCII; the client exactly when the messages
it reads are packets, the password element has an inverse and the server's confirmation is ASCII. -/
theorem drivers_documented_iff (rt : Runtime) (grp : ModpGroup) (a b : Nat) (password : Bytes)
    (inputs : List WsMessage) :
    (ServerDocumented inputs ((runServer rt grp b password).runLive inputs) ↔
      ServerReadable rt grp inputs) ∧
    (ClientDocumented inputs ((runClient rt grp a password).runLive inputs) ↔
      ClientReadable rt grp password inputs) :=
  ⟨serverRun_documented_iff (runServer_spec b password inputs),
    clientRun_documented_iff (runClient_spec a password inputs)⟩

/-- Text that is no JSON ends the server with a `ValidationError` and no `AUTH_FAIL`. -/
theorem server_validationError_on_malformed_text :
    ¬ ∀ inputs : List WsMessage,
      ServerDocumented inputs
        ((runServer (sampleRuntime hmacSha256) group14 1 (asciiBytes "pw")).runLive inputs) := by
  intro h
  have hparse : parseMessage (sampleRuntime hmacSha256) (.text "not json") =
      .error (.validationError "1 validation error for Packet\n  Invalid JSON") := by
    decide +kernel
  have hread := (serverRun_documented_iff (runServer_spec 1 (asciiBytes "pw")
    [.text "not json"])).mp (h [.text "not json"])
  exact not_parses hparse hread.1

end Priestly
