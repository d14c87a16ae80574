/-
Module: Priestly.Proofs.DriverRuns
Layer: Proofs
Purpose: Everything a handshake driver can do over a live connection, one case for each way a run can
  stand: what it has read, what it has sent, and how it ended.
Imports: Priestly.Proofs.Drivers
Trusted boundary: none
Main exports: ReadsCommit, ReadsChallenge, ServerRun, ClientRun, runServer_spec, runClient_spec,
  ClientRun.sent_cases, ClientRun.returned, ServerRun.sent_cases
-/
import Priestly.Proofs.Drivers

namespace Priestly

open ByteCodec Interaction

section

variable (rt : Runtime) (grp : ModpGroup)

/-! ### What a driver makes of a message -/

/-- The message carries a commitment of twenty octets. -/
def ReadsCommit (message : WsMessage) (commit : Bytes) : Prop :=
  ∃ text, parseMessage rt message = .ok (.covenantCommit text) ∧
    bytesFromHex text.toList = some commit ∧ commit.length = 20

/-- The message carries an accepted challenge. -/
def ReadsElement (message : WsMessage) (maskedB : grp.Element) : Prop :=
  ∃ text, parseMessage rt message = .ok (.covenantChallenge text) ∧
    parseElement rt grp text = .ok maskedB

/-- The message carries a challenge from which the client recovers `publicB`. -/
def ReadsChallenge (password : Bytes) (message : WsMessage) (publicB : grp.Element) : Prop :=
  ∃ maskedB, ReadsElement rt grp message maskedB ∧
    unmask grp maskedB (secretToElement grp rt.hmac password) = .ok publicB

/-- The message carries a confirmation that reveals the committed element. -/
def ReadsConfirm (commit : Bytes) (message : WsMessage) (publicA : grp.Element)
    (confirmC : String) : Prop :=
  ∃ text, parseMessage rt message = .ok (.covenantConfirm text confirmC) ∧
    parseElement rt grp text = .ok publicA ∧ commitDigest grp publicA = commit

/-! ### The frames a driver sends -/

/-- The client's commitment. -/
def commitFrame (a : Nat) : Frame :=
  .covenantCommit (hexString (commitDigest grp (publicElement grp a)))

/-- The client's confirmation. -/
def confirmFrame (a : Nat) (publicB : grp.Element) : Frame :=
  .covenantConfirm (elementHex grp (publicElement grp a))
    (hexString (confirmMac grp rt.hmac (sharedSecret grp publicB a)
      (commitDigest grp (publicElement grp a)) clientRole (publicElement grp a)))

/-- The server's challenge. -/
def challengeFrame (b : Nat) (password : Bytes) : Frame :=
  .covenantChallenge (elementHex grp
    (mask grp (publicElement grp b) (secretToElement grp rt.hmac password)))

/-- The server's verdict. -/
def authOkFrame (b : Nat) (commit : Bytes) (publicA : grp.Element) : Frame :=
  .authOk (hexString (confirmMac grp rt.hmac (sharedSecret grp publicA b) commit serverRole
    (publicElement grp b)))

/-- The verdict the client expects. -/
def expectedFrame (a : Nat) (publicB : grp.Element) : Frame :=
  .authOk (hexString (confirmMac grp rt.hmac (sharedSecret grp publicB a)
    (commitDigest grp (publicElement grp a)) serverRole publicB))

/-- The session a side ends with. -/
def sessionOf (shared : grp.Element) (isClient : Bool) : SessionState :=
  .new (sessionKeys grp rt.hmac shared) isClient true

/-! ### Runs -/

/-- The runs of the server: what was read, against what was sent and the outcome. -/
inductive ServerRun (b : Nat) (password : Bytes) :
    List WsMessage → Program.Trace Frame Exn SessionState → Prop where
  | waitsForCommit : ServerRun b password [] ⟨[], .waiting⟩
  | commitUnparsed {message rest exn} (h : parseMessage rt message = .error exn) :
      ServerRun b password (message :: rest) ⟨[], .raised exn⟩
  | commitRejected {message rest frame reason} (h : parseMessage rt message = .ok frame)
      (reject : ∀ commit, ¬ ReadsCommit rt message commit) :
      ServerRun b password (message :: rest) ⟨[.authFail reason], .raised (.covenantError reason)⟩
  | waitsForConfirm {message commit} (h : ReadsCommit rt message commit) :
      ServerRun b password [message] ⟨[challengeFrame rt grp b password], .waiting⟩
  | confirmUnparsed {message message' rest commit exn} (h : ReadsCommit rt message commit)
      (h' : parseMessage rt message' = .error exn) :
      ServerRun b password (message :: message' :: rest)
        ⟨[challengeFrame rt grp b password], .raised exn⟩
  | confirmRejected {message message' rest commit frame reason} (h : ReadsCommit rt message commit)
      (h' : parseMessage rt message' = .ok frame)
      (ascii : ∀ publicA confirmC, ReadsConfirm rt grp commit message' publicA confirmC →
        isAscii confirmC = true) :
      ServerRun b password (message :: message' :: rest)
        ⟨[challengeFrame rt grp b password, .authFail reason], .raised (.covenantError reason)⟩
  | confirmNotAscii {message message' rest commit publicA confirmC}
      (h : ReadsCommit rt message commit)
      (h' : ReadsConfirm rt grp commit message' publicA confirmC) (ascii : isAscii confirmC = false) :
      ServerRun b password (message :: message' :: rest)
        ⟨[challengeFrame rt grp b password], .raised (.typeError nonAsciiText)⟩
  | accepted {message message' rest commit publicA} (h : ReadsCommit rt message commit)
      (h' : ReadsConfirm rt grp commit message' publicA (expectedConfirm rt grp b commit publicA)) :
      ServerRun b password (message :: message' :: rest)
        ⟨[challengeFrame rt grp b password, authOkFrame rt grp b commit publicA],
          .returned (sessionOf rt grp (sharedSecret grp publicA b) false)⟩

/-- The runs of the client. -/
inductive ClientRun (a : Nat) (password : Bytes) :
    List WsMessage → Program.Trace Frame Exn SessionState → Prop where
  | waitsForChallenge : ClientRun a password [] ⟨[commitFrame grp a], .waiting⟩
  | challengeUnparsed {message rest exn} (h : parseMessage rt message = .error exn) :
      ClientRun a password (message :: rest) ⟨[commitFrame grp a], .raised exn⟩
  | challengeRejected {message rest frame reason} (h : parseMessage rt message = .ok frame)
      (reject : ∀ maskedB, ¬ ReadsElement rt grp message maskedB) :
      ClientRun a password (message :: rest)
        ⟨[commitFrame grp a], .raised (.covenantError reason)⟩
  | notInvertible {message rest maskedB exn} (h : ReadsElement rt grp message maskedB)
      (h' : unmask grp maskedB (secretToElement grp rt.hmac password) = .error exn) :
      ClientRun a password (message :: rest) ⟨[commitFrame grp a], .raised exn⟩
  | waitsForResult {message publicB} (h : ReadsChallenge rt grp password message publicB) :
      ClientRun a password [message]
        ⟨[commitFrame grp a, confirmFrame rt grp a publicB], .waiting⟩
  | resultUnparsed {message message' rest publicB exn}
      (h : ReadsChallenge rt grp password message publicB)
      (h' : parseMessage rt message' = .error exn) :
      ClientRun a password (message :: message' :: rest)
        ⟨[commitFrame grp a, confirmFrame rt grp a publicB], .raised exn⟩
  | resultRejected {message message' rest publicB frame reason}
      (h : ReadsChallenge rt grp password message publicB) (h' : parseMessage rt message' = .ok frame)
      (ascii : ∀ confirmS, frame = .authOk confirmS → isAscii confirmS = true) :
      ClientRun a password (message :: message' :: rest)
        ⟨[commitFrame grp a, confirmFrame rt grp a publicB], .raised (.covenantError reason)⟩
  | resultNotAscii {message message' rest publicB confirmS}
      (h : ReadsChallenge rt grp password message publicB)
      (h' : parseMessage rt message' = .ok (.authOk confirmS)) (ascii : isAscii confirmS = false) :
      ClientRun a password (message :: message' :: rest)
        ⟨[commitFrame grp a, confirmFrame rt grp a publicB], .raised (.typeError nonAsciiText)⟩
  | accepted {message message' rest publicB}
      (h : ReadsChallenge rt grp password message publicB)
      (h' : parseMessage rt message' = .ok (expectedFrame rt grp a publicB)) :
      ClientRun a password (message :: message' :: rest)
        ⟨[commitFrame grp a, confirmFrame rt grp a publicB],
          .returned (sessionOf rt grp (sharedSecret grp publicB a) true)⟩

end

section Specs

variable {rt : Runtime} {grp : ModpGroup}

/-- A message that parses to a commitment frame carries the commitment of that frame. -/
theorem readsCommit_iff {message : WsMessage} {frame : Frame}
    (h : parseMessage rt message = .ok frame) {commit : Bytes} :
    ReadsCommit rt message commit ↔
      ∃ text, frame = .covenantCommit text ∧ bytesFromHex text.toList = some commit ∧
        commit.length = 20 := by
  constructor
  · rintro ⟨text, hparse, hrest⟩
    rw [h] at hparse
    exact ⟨text, Except.ok.inj hparse, hrest⟩
  · rintro ⟨text, rfl, hrest⟩
    exact ⟨text, h, hrest⟩

/-- A message carries at most one commitment. -/
theorem readsCommit_unique {message : WsMessage} {commit commit' : Bytes}
    (h : ReadsCommit rt message commit) (h' : ReadsCommit rt message commit') : commit = commit' := by
  obtain ⟨text, hparse, hbytes, _⟩ := h
  obtain ⟨text', hparse', hbytes', _⟩ := h'
  rw [hparse] at hparse'
  cases hparse'
  rw [hbytes] at hbytes'
  exact Option.some.inj hbytes'

/-- A message carries at most one challenge element. -/
theorem readsElement_unique {message : WsMessage} {maskedB maskedB' : grp.Element}
    (h : ReadsElement rt grp message maskedB) (h' : ReadsElement rt grp message maskedB') :
    maskedB = maskedB' := by
  obtain ⟨text, hparse, hM⟩ := h
  obtain ⟨text', hparse', hM'⟩ := h'
  rw [hparse] at hparse'
  cases hparse'
  rw [hM] at hM'
  exact Except.ok.inj hM'

/-- A client recovers at most one element from a message. -/
theorem readsChallenge_unique {password : Bytes} {message : WsMessage} {publicB publicB' : grp.Element}
    (h : ReadsChallenge rt grp password message publicB)
    (h' : ReadsChallenge rt grp password message publicB') : publicB = publicB' := by
  obtain ⟨maskedB, hM, hB⟩ := h
  obtain ⟨maskedB', hM', hB'⟩ := h'
  rw [readsElement_unique hM hM'] at hB
  rw [hB] at hB'
  exact Except.ok.inj hB'

/-- The server's run up to its challenge. -/
private theorem runLive_serverChallenges (b : Nat) (password commit : Bytes)
    (inputs : List WsMessage) :
    (serverChallenges rt grp b password commit).runLive inputs =
      { (recvFrame rt >>= serverOnConfirm rt grp b commit).runLive inputs with
        sent := challengeFrame rt grp b password ::
          ((recvFrame rt >>= serverOnConfirm rt grp b commit).runLive inputs).sent } := rfl

/-- Every run of the server is one of the listed ones. -/
theorem runServer_spec (b : Nat) (password : Bytes) (inputs : List WsMessage) :
    ServerRun rt grp b password inputs ((runServer rt grp b password).runLive inputs) := by
  have hrun : runServer rt grp b password = (recvFrame rt >>= serverOnCommit rt grp b password) := rfl
  rw [hrun]
  cases inputs with
  | nil =>
      rw [runLive_recvFrame_nil]
      exact .waitsForCommit
  | cons message inputs =>
      cases hparse : parseMessage rt message with
      | error exn =>
          rw [runLive_recvFrame_error hparse]
          exact .commitUnparsed hparse
      | ok frame =>
          rw [runLive_recvFrame_ok hparse]
          rcases serverOnCommit_cases rt grp b password frame with
            ⟨⟨reason, hfail⟩, hreject⟩ | ⟨text, commit, rfl, hbytes, hlength, hgo⟩
          · rw [hfail, runLive_fail]
            refine .commitRejected hparse ?_
            intro commit hreads
            obtain ⟨text, hframe, hbytes, hlength⟩ := (readsCommit_iff hparse).mp hreads
            exact hreject text commit hframe hbytes hlength
          · have hreads : ReadsCommit rt message commit := ⟨text, hparse, hbytes, hlength⟩
            rw [hgo, runLive_serverChallenges]
            cases inputs with
            | nil =>
                rw [runLive_recvFrame_nil]
                exact .waitsForConfirm hreads
            | cons message' inputs =>
                cases hparse' : parseMessage rt message' with
                | error exn =>
                    rw [runLive_recvFrame_error hparse']
                    exact .confirmUnparsed hreads hparse'
                | ok frame' =>
                    rw [runLive_recvFrame_ok hparse']
                    rcases serverOnConfirm_cases rt grp b commit frame' inputs with
                      ⟨⟨reason, hrun⟩, hascii⟩ |
                        ⟨text', confirmC, publicA, rfl, hA, hcommit, hascii, hrun⟩ |
                        ⟨text', publicA, rfl, hA, hcommit, hrun⟩
                    · rw [hrun]
                      refine .confirmRejected hreads hparse' ?_
                      rintro publicA confirmC ⟨text', hsame, hA, hcommit⟩
                      rw [hparse'] at hsame
                      exact hascii text' confirmC publicA (Except.ok.inj hsame) hA hcommit
                    · rw [hrun]
                      exact .confirmNotAscii hreads ⟨text', hparse', hA, hcommit⟩ hascii
                    · rw [hrun]
                      exact .accepted hreads ⟨text', hparse', hA, hcommit⟩

/-- The client's run from its confirmation. -/
private theorem runLive_clientConfirms (a : Nat) (publicB : grp.Element) (inputs : List WsMessage) :
    (clientConfirms rt grp a publicB).runLive inputs =
      { (recvFrame rt >>= fun frame => Program.lift (clientOnResult rt grp (sharedSecret grp publicB a)
          (commitDigest grp (publicElement grp a)) publicB frame)).runLive inputs with
        sent := confirmFrame rt grp a publicB ::
          ((recvFrame rt >>= fun frame => Program.lift (clientOnResult rt grp
            (sharedSecret grp publicB a) (commitDigest grp (publicElement grp a)) publicB
              frame)).runLive inputs).sent } := rfl

/-- Every run of the client is one of the listed ones. -/
theorem runClient_spec (a : Nat) (password : Bytes) (inputs : List WsMessage) :
    ClientRun rt grp a password inputs ((runClient rt grp a password).runLive inputs) := by
  have hrun : (runClient rt grp a password).runLive inputs =
      { (recvFrame rt >>= clientOnChallenge rt grp a password).runLive inputs with
        sent := commitFrame grp a ::
          ((recvFrame rt >>= clientOnChallenge rt grp a password).runLive inputs).sent } := rfl
  rw [hrun]
  cases inputs with
  | nil =>
      rw [runLive_recvFrame_nil]
      exact .waitsForChallenge
  | cons message inputs =>
      cases hparse : parseMessage rt message with
      | error exn =>
          rw [runLive_recvFrame_error hparse]
          exact .challengeUnparsed hparse
      | ok frame =>
          rw [runLive_recvFrame_ok hparse]
          rcases clientOnChallenge_cases rt grp a password frame with
            ⟨⟨reason, hraise⟩, hreject⟩ | ⟨text, maskedB, exn, rfl, hM, hB, hraise⟩ |
              ⟨text, maskedB, publicB, rfl, hM, hB, hgo⟩
          · rw [hraise]
            refine .challengeRejected hparse ?_
            rintro maskedB ⟨text, hsame, hM⟩
            rw [hparse] at hsame
            exact hreject text maskedB (Except.ok.inj hsame) hM
          · rw [hraise]
            exact .notInvertible ⟨text, hparse, hM⟩ hB
          · have hreads : ReadsChallenge rt grp password message publicB :=
              ⟨maskedB, ⟨text, hparse, hM⟩, hB⟩
            rw [hgo, runLive_clientConfirms]
            cases inputs with
            | nil =>
                rw [runLive_recvFrame_nil]
                exact .waitsForResult hreads
            | cons message' inputs =>
                cases hparse' : parseMessage rt message' with
                | error exn =>
                    rw [runLive_recvFrame_error hparse']
                    exact .resultUnparsed hreads hparse'
                | ok frame' =>
                    rw [runLive_recvFrame_ok hparse']
                    rcases clientOnResult_cases rt grp (sharedSecret grp publicB a)
                      (commitDigest grp (publicElement grp a)) publicB frame' with
                      ⟨⟨reason, hresult⟩, hascii⟩ | ⟨confirmS, rfl, hascii, hresult⟩ |
                        ⟨rfl, hresult⟩
                    · rw [hresult]
                      exact .resultRejected hreads hparse' hascii
                    · rw [hresult]
                      exact .resultNotAscii hreads hparse' hascii
                    · rw [hresult]
                      exact .accepted hreads hparse'

/-- A server that has read a commitment sends its challenge. -/
theorem runServer_challenges {b : Nat} {password commit : Bytes} {message : WsMessage}
    (h : ReadsCommit rt message commit) (inputs : List WsMessage) :
    (runServer rt grp b password).runLive (message :: inputs) =
      { (recvFrame rt >>= serverOnConfirm rt grp b commit).runLive inputs with
        sent := challengeFrame rt grp b password ::
          ((recvFrame rt >>= serverOnConfirm rt grp b commit).runLive inputs).sent } := by
  obtain ⟨text, hparse, hbytes, hlength⟩ := h
  have hrun : runServer rt grp b password = (recvFrame rt >>= serverOnCommit rt grp b password) := rfl
  rw [hrun, runLive_recvFrame_ok hparse, serverOnCommit_ok hbytes hlength, runLive_serverChallenges]

/-- A server that has read the confirmation it expects sends its verdict and returns. -/
theorem runServer_accepts {b : Nat} {password commit : Bytes} {message message' : WsMessage}
    {publicA : grp.Element} (h : ReadsCommit rt message commit)
    (h' : ReadsConfirm rt grp commit message' publicA (expectedConfirm rt grp b commit publicA)) :
    (runServer rt grp b password).runLive [message, message'] =
      ⟨[challengeFrame rt grp b password, authOkFrame rt grp b commit publicA],
        .returned (sessionOf rt grp (sharedSecret grp publicA b) false)⟩ := by
  obtain ⟨text, hparse, hA, hcommit⟩ := h'
  rw [runServer_challenges h, runLive_recvFrame_ok hparse, serverOnConfirm_ok hA hcommit]
  rfl

/-- A client that has recovered the server's element sends its confirmation. -/
theorem runClient_confirms {a : Nat} {password : Bytes} {message : WsMessage} {publicB : grp.Element}
    (h : ReadsChallenge rt grp password message publicB) (inputs : List WsMessage) :
    ∃ further, ((runClient rt grp a password).runLive (message :: inputs)).sent =
      commitFrame grp a :: confirmFrame rt grp a publicB :: further := by
  obtain ⟨maskedB, ⟨text, hparse, hM⟩, hB⟩ := h
  have hrun : ((runClient rt grp a password).runLive (message :: inputs)).sent =
      commitFrame grp a ::
        ((recvFrame rt >>= clientOnChallenge rt grp a password).runLive (message :: inputs)).sent := rfl
  rw [hrun, runLive_recvFrame_ok hparse, clientOnChallenge_ok hM hB, runLive_clientConfirms]
  exact ⟨_, rfl⟩

/-- A client that then reads the verdict it expects returns. -/
theorem runClient_accepts {a : Nat} {password : Bytes} {message message' : WsMessage}
    {publicB : grp.Element} (h : ReadsChallenge rt grp password message publicB)
    (h' : parseMessage rt message' = .ok (expectedFrame rt grp a publicB)) :
    (runClient rt grp a password).runLive [message, message'] =
      ⟨[commitFrame grp a, confirmFrame rt grp a publicB],
        .returned (sessionOf rt grp (sharedSecret grp publicB a) true)⟩ := by
  obtain ⟨maskedB, ⟨text, hparse, hM⟩, hB⟩ := h
  have hrun : (runClient rt grp a password).runLive [message, message'] =
      { (recvFrame rt >>= clientOnChallenge rt grp a password).runLive [message, message'] with
        sent := commitFrame grp a ::
          ((recvFrame rt >>= clientOnChallenge rt grp a password).runLive
            [message, message']).sent } := rfl
  rw [hrun, runLive_recvFrame_ok hparse, clientOnChallenge_ok hM hB, runLive_clientConfirms,
    runLive_recvFrame_ok h', expectedFrame, clientOnResult_expected]
  rfl

end Specs

/-! ### What a run tells -/

section Inversion

variable {rt : Runtime} {grp : ModpGroup} {password : Bytes} {inputs : List WsMessage}
variable {trace : Program.Trace Frame Exn SessionState} {frame : Frame}

/-- A client sends its commitment and, once it has recovered the server's element, its
confirmation. -/
theorem ClientRun.sent_cases {a : Nat} (h : ClientRun rt grp a password inputs trace)
    (hsent : frame ∈ trace.sent) :
    frame = commitFrame grp a ∨
      ∃ message rest publicB, inputs = message :: rest ∧
        ReadsChallenge rt grp password message publicB ∧ frame = confirmFrame rt grp a publicB := by
  cases h with
  | waitsForChallenge | challengeUnparsed _ | challengeRejected _ _ | notInvertible _ _ =>
      exact .inl (List.mem_singleton.mp hsent)
  | waitsForResult hreads | resultUnparsed hreads _ | resultRejected hreads _ _
  | resultNotAscii hreads _ _ | accepted hreads _ =>
      rcases List.mem_cons.mp hsent with hcommit | hconfirm
      · exact .inl hcommit
      · exact .inr ⟨_, _, _, rfl, hreads, List.mem_singleton.mp hconfirm⟩

/-- A client returns only after the verdict it expects. -/
theorem ClientRun.returned {a : Nat} (h : ClientRun rt grp a password inputs trace)
    {session : SessionState} (hreturn : trace.outcome = .returned session) :
    ∃ message message' rest publicB, inputs = message :: message' :: rest ∧
      ReadsChallenge rt grp password message publicB ∧
      parseMessage rt message' = .ok (expectedFrame rt grp a publicB) ∧
      session = sessionOf rt grp (sharedSecret grp publicB a) true := by
  cases h with
  | accepted hreads hparse =>
      exact ⟨_, _, _, _, rfl, hreads, hparse, (Program.Outcome.returned.inj hreturn).symm⟩
  | _ => cases hreturn

/-- A server sends its challenge, a refusal, or its verdict on the confirmation it expects, with which
it returns. -/
theorem ServerRun.sent_cases {b : Nat} (h : ServerRun rt grp b password inputs trace)
    (hsent : frame ∈ trace.sent) :
    frame = challengeFrame rt grp b password ∨ (∃ reason, frame = .authFail reason) ∨
      ∃ message message' rest commit publicA, inputs = message :: message' :: rest ∧
        ReadsCommit rt message commit ∧
        ReadsConfirm rt grp commit message' publicA (expectedConfirm rt grp b commit publicA) ∧
        frame = authOkFrame rt grp b commit publicA ∧
        trace.outcome = .returned (sessionOf rt grp (sharedSecret grp publicA b) false) := by
  cases h with
  | waitsForCommit | commitUnparsed _ => cases hsent
  | commitRejected _ _ => exact .inr (.inl ⟨_, List.mem_singleton.mp hsent⟩)
  | waitsForConfirm _ | confirmUnparsed _ _ | confirmNotAscii _ _ _ =>
      exact .inl (List.mem_singleton.mp hsent)
  | confirmRejected _ _ _ =>
      rcases List.mem_cons.mp hsent with hchallenge | hfail
      · exact .inl hchallenge
      · exact .inr (.inl ⟨_, List.mem_singleton.mp hfail⟩)
  | accepted hreads hconfirm =>
      rcases List.mem_cons.mp hsent with hchallenge | hok
      · exact .inl hchallenge
      · exact .inr (.inr ⟨_, _, _, _, _, rfl, hreads, hconfirm, List.mem_singleton.mp hok, rfl⟩)

end Inversion

end Priestly
