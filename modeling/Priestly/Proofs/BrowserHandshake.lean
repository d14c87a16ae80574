/-
Module: Priestly.Proofs.BrowserHandshake
Layer: Proofs
Purpose: Which servers the page and a Python client accept. Each recovers an element from the challenge
  and accepts the one verdict made for it; they accept the same servers when both read the challenge as
  the same element, and a challenge that the Python client refuses is read by the page all the same.
Imports: Priestly.Ui.Page, Priestly.Proofs.UiCovenant, Priestly.Proofs.DriverRuns,
  Priestly.Python.SampleRuntime
Trusted boundary: none
Main exports: Ui.runCovenant_eq, SameServers, SameReading, browser_accepts_same_servers
-/
import Priestly.Proofs.DriverRuns
import Priestly.Proofs.UiCovenant
import Priestly.Python.SampleRuntime
import Priestly.Ui.Page

namespace Priestly

open ByteCodec Interaction

namespace Ui

open Js

/-! ### The page -/

/-- The number the page reads a challenge as. -/
def reading (maskedB : String) : Nat := ofBytesBE (hexToBytes maskedB)

/-- The wire form of an element is read as the element. -/
theorem reading_elementHex {grp : ModpGroup} (x : grp.Element) : reading (elementHex grp x) = x.val := by
  rw [reading, elementHex, hexToBytes_hexString, grp.ofBytesBE_toBytes]

/-- The keys the page ends with. -/
def keysOf (rt : Runtime) (grp : ModpGroup) (shared : grp.Element) : Keys where
  clientMac := (sessionKeys grp rt.hmac shared).clientMac
  serverMac := (sessionKeys grp rt.hmac shared).serverMac

section Run

variable (rt : Runtime) (grp : ModpGroup)

/-- What the page makes of the verdict on an element. -/
theorem covenantOnResult_eq (a : Nat) (publicB : grp.Element) (confirmS : String) :
    covenantOnResult grp rt.hmac (sharedSecret grp publicB a).val
        (commitDigest grp (publicElement grp a)) publicB.val (.authOk confirmS) =
      if Frame.authOk confirmS = expectedFrame rt grp a publicB then
        .ok (keysOf rt grp (sharedSecret grp publicB a))
      else .error (.error "server confirmation failed") := by
  have hascii : isAscii "server" = true := by decide
  have hexpected : expectedFrame rt grp a publicB =
      .authOk (bytesToHex (Priestly.confirmMac grp rt.hmac (sharedSecret grp publicB a)
        (commitDigest grp (publicElement grp a)) serverRole publicB)) := by
    rw [bytesToHex_eq]
    rfl
  rw [covenantOnResult, confirmMac_eq _ _ hascii, Js.ok_bind, hexpected, deriveKeys_eq]
  by_cases hsame : confirmS = bytesToHex (Priestly.confirmMac grp rt.hmac (sharedSecret grp publicB a)
      (commitDigest grp (publicElement grp a)) serverRole publicB)
  · rw [if_pos (congrArg Frame.authOk hsame)]
    exact if_neg (not_not.mpr hsame.symm)
  · rw [if_neg fun h => hsame (Frame.authOk.inj h)]
    exact if_pos fun h => hsame h.symm

/-- The page once it has recovered the server's element: it sends its confirmation and reads the verdict. -/
def pageConfirms (a : Nat) (publicB : grp.Element) : Script Keys := do
  let publicA := publicElement grp a
  let commit := commitDigest grp publicA
  let shared := sharedSecret grp publicB a
  Program.emit (.covenantConfirm (elementHex grp publicA)
    (hexString (Priestly.confirmMac grp rt.hmac shared commit clientRole publicA)))
  Program.lift (covenantOnResult grp rt.hmac shared.val commit publicB.val (← Program.await))

/-- The public element and the commitment are the ones of the Python client. -/
theorem runCovenant_start (a : Nat) (pwBytes : Bytes) :
    runCovenant grp rt.hmac a pwBytes =
      (Program.emit (.covenantCommit (hexString (commitDigest grp (publicElement grp a)))) >>= fun _ =>
        Program.await >>= covenantOnChallenge grp rt.hmac a pwBytes) := by
  have hpublicA : modPow grp.G a grp.P = ((publicElement grp a).val : Int) := modPow_element grp.G a
  simp only [runCovenant, hpublicA, bigToBytes_val, bytesToHex_eq]
  rfl

/-- A challenge from which no element can be recovered. -/
theorem covenantOnChallenge_error {pwBytes : Bytes} (h : pwBytes ≠ []) (a : Nat) (maskedB : String)
    (hgcd : Nat.gcd (Priestly.secretToElement grp rt.hmac pwBytes).val grp.P ≠ 1) :
    covenantOnChallenge grp rt.hmac a pwBytes (.covenantChallenge maskedB) =
      .raise (.error "no inverse") := by
  have hP : (0 : Int) < grp.P := by exact_mod_cast grp.P_pos
  have hinverse : modinv ((Priestly.secretToElement grp rt.hmac pwBytes).val : Int) grp.P =
      .error (.error "no inverse") := by
    rw [modinv_eq _ hP, modinv_eq_error hgcd]
    rfl
  rw [covenantOnChallenge, secretToElement_eq h, Program.lift_ok, Program.done_bind, hinverse]
  rfl

/-- A challenge whose element is recovered takes the page to its confirmation. -/
theorem covenantOnChallenge_ok {pwBytes : Bytes} (h : pwBytes ≠ []) (a : Nat) {maskedB : String}
    {publicB : grp.Element}
    (hunmask : unmask grp (grp.reduce (reading maskedB))
      (Priestly.secretToElement grp rt.hmac pwBytes) = .ok publicB) :
    covenantOnChallenge grp rt.hmac a pwBytes (.covenantChallenge maskedB) =
      pageConfirms rt grp a publicB := by
  have hP : (0 : Int) < grp.P := by exact_mod_cast grp.P_pos
  have hpublicA : modPow grp.G a grp.P = ((publicElement grp a).val : Int) := modPow_element grp.G a
  have hgcd : Nat.gcd (Priestly.secretToElement grp rt.hmac pwBytes).val grp.P = 1 := by
    by_contra hne
    rw [unmask_eq_error hne] at hunmask
    cases hunmask
  obtain ⟨x, hx, _, _⟩ := modinv_eq_ok grp.P_pos hgcd
  have hinverse : modinv ((Priestly.secretToElement grp rt.hmac pwBytes).val : Int) grp.P =
      .ok (x : Int) := by
    rw [modinv_eq _ hP, hx]
    rfl
  have hproduct : publicB = grp.reduce (reading maskedB * x) := by
    rw [unmask, hx, Priestly.ok_bind, Int.toNat_natCast] at hunmask
    rw [← Except.ok.inj hunmask]
    exact Fin.ext (Nat.mod_mul_mod (reading maskedB) x grp.P)
  have hpublicB : (bytesToBig (hexToBytes maskedB) * (x : Int)).tmod grp.P = (publicB.val : Int) := by
    rw [hproduct, bytesToBig_eq, ← Int.natCast_mul]
    rfl
  have hshared : modPow (publicB.val : Int) a grp.P = ((sharedSecret grp publicB a).val : Int) :=
    modPow_element publicB.val a
  have hascii : isAscii "client" = true := by decide
  have hconfirm : confirmMac grp rt.hmac (sharedSecret grp publicB a).val
      (sha1 (grp.toBytes (publicElement grp a))) "client" (publicElement grp a).val =
        .ok (Priestly.confirmMac grp rt.hmac (sharedSecret grp publicB a)
          (commitDigest grp (publicElement grp a)) clientRole (publicElement grp a)) :=
    confirmMac_eq _ _ hascii _
  rw [covenantOnChallenge, secretToElement_eq h, Program.lift_ok, Program.done_bind, hinverse,
    Program.lift_ok, Program.done_bind]
  simp only [hpublicA, bigToBytes_val, hpublicB, hshared, hconfirm, bytesToHex_eq, Program.lift_ok,
    Program.done_bind]
  rfl

/-- How the page ends when it is sent a challenge and a verdict: it recovers an element from what it reads
the challenge as, and accepts the verdict that is made for it. -/
theorem runCovenant_eq {pwBytes : Bytes} (h : pwBytes ≠ []) (a : Nat) (maskedB confirmS : String) :
    ((runCovenant grp rt.hmac a pwBytes).runLive [.covenantChallenge maskedB, .authOk confirmS]).outcome =
      match unmask grp (grp.reduce (reading maskedB))
        (Priestly.secretToElement grp rt.hmac pwBytes) with
      | .error _ => .raised (.error "no inverse")
      | .ok publicB =>
          if Frame.authOk confirmS = expectedFrame rt grp a publicB then
            .returned (keysOf rt grp (sharedSecret grp publicB a))
          else .raised (.error "server confirmation failed") := by
  have hrun : ((runCovenant grp rt.hmac a pwBytes).runLive
      [.covenantChallenge maskedB, .authOk confirmS]).outcome =
        ((covenantOnChallenge grp rt.hmac a pwBytes (.covenantChallenge maskedB)).runLive
          [.authOk confirmS]).outcome := rfl
  rw [hrun]
  by_cases hgcd : Nat.gcd (Priestly.secretToElement grp rt.hmac pwBytes).val grp.P = 1
  · obtain ⟨x, _, hunmask⟩ := unmask_eq_ok (grp.reduce (reading maskedB)) hgcd
    generalize grp.reduce ((grp.reduce (reading maskedB)).val * x) = publicB at hunmask
    rw [covenantOnChallenge_ok rt grp h a hunmask, hunmask, pageConfirms]
    simp only [Program.runLive_emit_bind, Program.runLive_await_bind_cons, covenantOnResult_eq]
    by_cases hverdict : Frame.authOk confirmS = expectedFrame rt grp a publicB
    · rw [if_pos hverdict, if_pos hverdict]
      rfl
    · rw [if_neg hverdict, if_neg hverdict]
      rfl
  · rw [covenantOnChallenge_error rt grp h a maskedB hgcd, unmask_eq_error hgcd]
    rfl

/-- The page completes exactly on the verdict for the element it recovers. -/
theorem runCovenant_returned_iff {pwBytes : Bytes} (h : pwBytes ≠ []) (a : Nat)
    (maskedB confirmS : String) (keys : Keys) :
    ((runCovenant grp rt.hmac a pwBytes).runLive
        [.covenantChallenge maskedB, .authOk confirmS]).outcome = .returned keys ↔
      ∃ publicB, unmask grp (grp.reduce (reading maskedB))
          (Priestly.secretToElement grp rt.hmac pwBytes) = .ok publicB ∧
        Frame.authOk confirmS = expectedFrame rt grp a publicB ∧
        keys = keysOf rt grp (sharedSecret grp publicB a) := by
  rw [runCovenant_eq rt grp h]
  cases unmask grp (grp.reduce (reading maskedB)) (Priestly.secretToElement grp rt.hmac pwBytes) with
  | error exn =>
      constructor
      · nofun
      · nofun
  | ok publicB =>
      by_cases hverdict : Frame.authOk confirmS = expectedFrame rt grp a publicB
      · simp only [if_pos hverdict]
        constructor
        · intro hkeys
          exact ⟨publicB, rfl, hverdict, (Program.Outcome.returned.inj hkeys).symm⟩
        · rintro ⟨_, hsame, _, rfl⟩
          rw [Except.ok.inj hsame]
      · simp only [if_neg hverdict]
        constructor
        · nofun
        · rintro ⟨_, hsame, hverdict', _⟩
          obtain rfl := Except.ok.inj hsame
          exact absurd hverdict' hverdict

end Run

end Ui

/-! ### The Python client -/

section Client

variable {rt : Runtime} {grp : ModpGroup}

/-- The client returns exactly on the verdict for the element it recovers. -/
theorem runClient_returned_iff {maskedB confirmS : String} {challenge verdict : WsMessage}
    (hchallenge : parseMessage rt challenge = .ok (.covenantChallenge maskedB))
    (hverdict : parseMessage rt verdict = .ok (.authOk confirmS)) (a : Nat) (password : Bytes)
    (session : SessionState) :
    ((runClient rt grp a password).runLive [challenge, verdict]).outcome = .returned session ↔
      ∃ element publicB, parseElement rt grp maskedB = .ok element ∧
        unmask grp element (secretToElement grp rt.hmac password) = .ok publicB ∧
        Frame.authOk confirmS = expectedFrame rt grp a publicB ∧
        session = sessionOf rt grp (sharedSecret grp publicB a) true := by
  constructor
  · intro hreturn
    obtain ⟨message, message', rest, publicB, hinputs, hreads, hparse, hsession⟩ :=
      (runClient_spec a password [challenge, verdict]).returned hreturn
    obtain ⟨rfl, hrest⟩ := List.cons.inj hinputs
    obtain ⟨rfl, _⟩ := List.cons.inj hrest
    obtain ⟨element, ⟨text, htext, helement⟩, hunmask⟩ := hreads
    obtain rfl := Frame.covenantChallenge.inj (Except.ok.inj (hchallenge.symm.trans htext))
    exact ⟨element, publicB, helement, hunmask, Except.ok.inj (hverdict.symm.trans hparse), hsession⟩
  · rintro ⟨element, publicB, helement, hunmask, hframe, rfl⟩
    rw [hframe] at hverdict
    rw [runClient_accepts ⟨element, ⟨maskedB, hchallenge, helement⟩, hunmask⟩ hverdict]

/-- The input of the MAC in the verdict for an element. -/
def verdictInput (grp : ModpGroup) (a : Nat) (publicB : grp.Element) : Bytes × Bytes :=
  confirmInput grp (sharedSecret grp publicB a) (commitDigest grp (publicElement grp a)) serverRole publicB

/-- A verdict is made for one element. -/
theorem expectedFrame_inj {inputs : Set (Bytes × Bytes)} (hfree : CollisionFree rt.hmac inputs) {a : Nat}
    {publicB publicB' : grp.Element} (hinput : verdictInput grp a publicB ∈ inputs)
    (hinput' : verdictInput grp a publicB' ∈ inputs)
    (h : expectedFrame rt grp a publicB = expectedFrame rt grp a publicB') : publicB = publicB' := by
  obtain ⟨_, hmessage⟩ := Prod.mk.inj (hfree hinput hinput' (hexString_injective (Frame.authOk.inj h)))
  exact grp.toBytes_injective (List.append_cancel_left hmessage)

/-- Unmasking by an element that has an inverse loses nothing. -/
theorem unmask_inj {x y pe publicB : grp.Element} (hx : unmask grp x pe = .ok publicB)
    (hy : unmask grp y pe = .ok publicB) : x = y := by
  have hgcd : Nat.gcd pe.val grp.P = 1 := by
    by_contra hne
    rw [unmask_eq_error hne] at hx
    cases hx
  have hvalue : ∀ z : grp.Element, unmask grp z pe = .ok publicB →
      (z.val : ZMod grp.P) = publicB.val * pe.val := by
    intro z hz
    obtain ⟨inverse, hinverse, hok⟩ := unmask_eq_ok z hgcd
    obtain rfl := Except.ok.inj (hok.symm.trans hz)
    rw [cast_reduce, Nat.cast_mul, mul_assoc, mul_comm (inverse : ZMod grp.P), hinverse, mul_one]
  apply element_ext
  rw [hvalue x hx, hvalue y hy]

end Client

/-! ### Which servers are accepted -/

section Comparison

variable (rt : Runtime) (password : Bytes) (maskedB : String)

/-- On a challenge, and on every verdict that a server may add to it, the page completes if and only if the
client returns a session, and then they hold the same MAC keys. -/
def SameServers (a : Nat) (challenge : WsMessage) (verdict : String → WsMessage) : Prop :=
  ∀ confirmS, isAscii confirmS = true →
    ((∃ keys, ((Ui.runCovenant Ui.group rt.hmac a password).runLive
        [.covenantChallenge maskedB, .authOk confirmS]).outcome = .returned keys) ↔
      ∃ session, ((runClient rt group14 a password).runLive
        [challenge, verdict confirmS]).outcome = .returned session) ∧
    ∀ keys session,
      ((Ui.runCovenant Ui.group rt.hmac a password).runLive
        [.covenantChallenge maskedB, .authOk confirmS]).outcome = .returned keys →
      ((runClient rt group14 a password).runLive
        [challenge, verdict confirmS]).outcome = .returned session →
      keys.clientMac = session.txMac ∧ keys.serverMac = session.rxMac

/-- The password element has no inverse, or the client accepts the challenge and the page reads it as the
same element. -/
def SameReading : Prop :=
  Nat.gcd (secretToElement group14 rt.hmac password).val group14.P ≠ 1 ∨
    ∃ element, parseElement rt group14 maskedB = .ok element ∧
      group14.reduce (Ui.reading maskedB) = element

/-- The inputs of the MAC in the verdicts that the page and the client expect on a challenge: each for the
element that it recovers from its reading. -/
def verdictInputs (a : Nat) : Set (Bytes × Bytes) :=
  {input | ∃ element publicB, (element = group14.reduce (Ui.reading maskedB) ∨
      parseElement rt group14 maskedB = .ok element) ∧
    unmask group14 element (secretToElement group14 rt.hmac password) = .ok publicB ∧
    input = verdictInput group14 a publicB}

variable {rt password maskedB}

section

variable {a : Nat} {challenge : WsMessage} {verdict : String → WsMessage}
variable (hpassword : password ≠ [])
variable (hchallenge : parseMessage rt challenge = .ok (.covenantChallenge maskedB))
variable (hverdict : ∀ confirmS, isAscii confirmS = true →
  parseMessage rt (verdict confirmS) = .ok (.authOk confirmS))

include hpassword hchallenge hverdict

/-- Where both read one element, or none can be recovered, both accept the same servers. -/
theorem sameServers_of_sameReading (h : SameReading rt password maskedB) :
    SameServers rt password maskedB a challenge verdict := by
  intro confirmS hascii
  simp only [Ui.group_eq, Ui.runCovenant_returned_iff rt group14 hpassword,
    runClient_returned_iff hchallenge (hverdict confirmS hascii)]
  rcases h with hgcd | ⟨element, helement, hread⟩
  · constructor
    · constructor
      · rintro ⟨_, _, hunmask, _⟩
        rw [unmask_eq_error hgcd] at hunmask
        cases hunmask
      · rintro ⟨_, _, _, _, hunmask, _⟩
        rw [unmask_eq_error hgcd] at hunmask
        cases hunmask
    · rintro _ _ ⟨_, hunmask, _⟩
      rw [unmask_eq_error hgcd] at hunmask
      cases hunmask
  · rw [hread]
    constructor
    · constructor
      · rintro ⟨_, publicB, hunmask, hframe, _⟩
        exact ⟨_, element, publicB, helement, hunmask, hframe, rfl⟩
      · rintro ⟨_, element', publicB, helement', hunmask, hframe, _⟩
        obtain rfl := Except.ok.inj (helement.symm.trans helement')
        exact ⟨_, publicB, hunmask, hframe, rfl⟩
    · rintro keys session ⟨publicB, hunmask, _, rfl⟩ ⟨element', publicB', helement', hunmask', _, rfl⟩
      obtain rfl := Except.ok.inj (helement.symm.trans helement')
      obtain rfl := Except.ok.inj (hunmask.symm.trans hunmask')
      exact ⟨rfl, rfl⟩

/-- Where an element can be recovered, the verdict for what the page reads shows a difference. -/
theorem sameReading_of_sameServers
    (h : (∀ element, parseElement rt group14 maskedB ≠ .ok element) ∨
      CollisionFree rt.hmac (verdictInputs rt password maskedB a))
    (hsame : SameServers rt password maskedB a challenge verdict) : SameReading rt password maskedB := by
  by_cases hgcd : Nat.gcd (secretToElement group14 rt.hmac password).val group14.P = 1
  · right
    obtain ⟨inverse, _, hunmask⟩ := unmask_eq_ok (group14.reduce (Ui.reading maskedB)) hgcd
    generalize group14.reduce ((group14.reduce (Ui.reading maskedB)).val * inverse) = pageB at hunmask
    -- The verdict of a server that has followed the page's reading.
    have hascii := isAscii_hexString (confirmMac group14 rt.hmac (sharedSecret group14 pageB a)
      (commitDigest group14 (publicElement group14 a)) serverRole pageB)
    obtain ⟨hiff, _⟩ := hsame _ hascii
    simp only [Ui.group_eq, Ui.runCovenant_returned_iff rt group14 hpassword,
      runClient_returned_iff hchallenge (hverdict _ hascii)] at hiff
    obtain ⟨_, element, publicB, helement, hunmask', hframe, _⟩ :=
      hiff.mp ⟨_, _, hunmask, rfl, rfl⟩
    rcases h with hrefused | hfree
    · exact absurd helement (hrefused element)
    · have hpublicB := expectedFrame_inj hfree ⟨_, _, .inl rfl, hunmask, rfl⟩
        ⟨_, _, .inr helement, hunmask', rfl⟩ hframe
      refine ⟨element, helement, ?_⟩
      exact unmask_inj hunmask (hpublicB ▸ hunmask')
  · exact .inl hgcd

end

/-- The page and the client accept the same servers on every challenge that both read as the same element.
On the others they do not: where the client refuses the challenge, the page accepts a server that has
computed the verdict for what the page reads; and where the client reads another element, no verdict is
the right one for both, if the MAC has no collision between the two that they expect. -/
theorem browser_accepts_same_servers (rt : Runtime) {password : Bytes} (hpassword : password ≠ [])
    (a : Nat) (maskedB : String) {challenge : WsMessage} {verdict : String → WsMessage}
    (hchallenge : parseMessage rt challenge = .ok (.covenantChallenge maskedB))
    (hverdict : ∀ confirmS, isAscii confirmS = true →
      parseMessage rt (verdict confirmS) = .ok (.authOk confirmS)) :
    (SameReading rt password maskedB → SameServers rt password maskedB a challenge verdict) ∧
      ((∀ element, parseElement rt group14 maskedB ≠ .ok element) ∨
          CollisionFree rt.hmac (verdictInputs rt password maskedB a) →
        SameServers rt password maskedB a challenge verdict → SameReading rt password maskedB) :=
  ⟨sameServers_of_sameReading hpassword hchallenge hverdict,
    sameReading_of_sameServers hpassword hchallenge hverdict⟩

end Comparison

/-! ### A challenge that both read alike, and one that they do not -/

theorem reads_challenge (maskedB : String) : parseMessage (sampleRuntime hmacSha256)
    (wire (sampleRuntime hmacSha256) (.covenantChallenge maskedB)) = .ok (.covenantChallenge maskedB) :=
  loads_dumps_sample hmacSha256 rfl

theorem reads_authOk (confirmS : String) : parseMessage (sampleRuntime hmacSha256)
    (wire (sampleRuntime hmacSha256) (.authOk confirmS)) = .ok (.authOk confirmS) :=
  loads_dumps_sample hmacSha256 rfl

/-- The challenge `02` is the element two to both. -/
theorem browser_accepts_same_servers_two :
    SameServers (sampleRuntime hmacSha256) (asciiBytes "pw") "02" 1
      (wire (sampleRuntime hmacSha256) (.covenantChallenge "02"))
      fun confirmS => wire (sampleRuntime hmacSha256) (.authOk confirmS) := by
  have hpassword : asciiBytes "pw" ≠ [] := by decide
  have helement : parseElement (sampleRuntime hmacSha256) group14 "02" = .ok (group14.reduce 2) := by
    decide +kernel
  have hreading : Ui.reading "02" = 2 := by decide
  obtain ⟨hsame, _⟩ :=
    browser_accepts_same_servers (sampleRuntime hmacSha256) hpassword 1 "02" (reads_challenge "02")
      fun confirmS _ => reads_authOk confirmS
  apply hsame
  right
  rw [hreading]
  exact ⟨_, helement, rfl⟩

/-- The challenge `00` is refused by the client and read as zero by the page, which then accepts a server
that knows no password. -/
theorem page_accepts_zero_challenge :
    asciiBytes "pw" ≠ [] ∧ IsExponent group14 1 ∧
      ¬ SameServers (sampleRuntime hmacSha256) (asciiBytes "pw") "00" 1
        (wire (sampleRuntime hmacSha256) (.covenantChallenge "00"))
        fun confirmS => wire (sampleRuntime hmacSha256) (.authOk confirmS) := by
  have hpassword : asciiBytes "pw" ≠ [] := by decide
  have hrefused : ∀ element, parseElement (sampleRuntime hmacSha256) group14 "00" ≠ .ok element := by
    have hzero : parseElement (sampleRuntime hmacSha256) group14 "00" =
        .error (.covenantError "group element out of range") := by decide +kernel
    intro element
    rw [hzero]
    nofun
  have hgcd : Nat.gcd (secretToElement group14 (sampleRuntime hmacSha256).hmac
      (asciiBytes "pw")).val group14.P = 1 := by
    decide +kernel
  refine ⟨hpassword, by decide +kernel, ?_⟩
  intro hsame
  have hreading : SameReading (sampleRuntime hmacSha256) (asciiBytes "pw") "00" :=
    sameReading_of_sameServers hpassword (reads_challenge "00") (fun confirmS _ => reads_authOk confirmS)
      (.inl hrefused) hsame
  rcases hreading with hnone | ⟨element, helement, _⟩
  · exact hnone hgcd
  · exact hrefused element helement

end Priestly
