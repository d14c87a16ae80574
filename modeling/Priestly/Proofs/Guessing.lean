/-
Module: Priestly.Proofs.Guessing
Layer: Proofs
Purpose: What an opponent of the server learns about its password. The answer to a commitment says next to
  nothing: a test of it says yes under one password as often as under another, give or take one exponent. And
  an attempt tests one password element: whoever reveals a confirmation after the challenge has fixed the
  element under which the server accepts it.
Imports: Priestly.Lib.SquarePowers, Priestly.Proofs.Agreement, Priestly.Proofs.PasswordBinding, Mathlib
  quadratic reciprocity for two
Trusted boundary: primality of `P` and `(P - 1) / 2` is a hypothesis, and so is a MAC without collisions among
  the confirmations that the server may expect
Main exports: challenge_hides_password, attempts_test_passwords
-/
import Mathlib.NumberTheory.LegendreSymbol.QuadraticReciprocity
import Priestly.Lib.SquarePowers
import Priestly.Proofs.Agreement
import Priestly.Proofs.PasswordBinding

namespace Priestly

open ByteCodec Interaction

section Guessing

/-! ### The powers of the generator -/

section Residues

variable {grp : ModpGroup} [Fact grp.P.Prime]

/-- Two is a square modulo a prime that leaves seven modulo eight, and it is neither zero nor one. -/
theorem generator_square (hG : grp.G = 2) (hP8 : grp.P % 8 = 7) :
    IsSquare (grp.G : ZMod grp.P) ∧ (grp.G : ZMod grp.P) ≠ 0 ∧ (grp.G : ZMod grp.P) ≠ 1 := by
  have hodd : grp.P ≠ 2 := by omega
  have hsquare : IsSquare (2 : ZMod grp.P) := (ZMod.exists_sq_eq_two_iff hodd).mpr (.inr hP8)
  have htwo : ((2 : Nat) : ZMod grp.P) ≠ 0 := by
    intro h
    have hle := Nat.le_of_dvd (by omega) ((ZMod.natCast_eq_zero_iff 2 grp.P).mp h)
    have hone := grp.one_lt_P
    omega
  rw [hG]
  refine ⟨?_, htwo, ?_⟩
  · exact_mod_cast hsquare
  · intro h
    have hone : (1 : ZMod grp.P) = 0 := by
      calc (1 : ZMod grp.P) = ((2 : Nat) : ZMod grp.P) - 1 := by norm_num
        _ = 0 := by rw [h, sub_self]
    exact one_ne_zero hone

/-- A password element is a power of the generator. -/
theorem exists_exponent (mac : Mac) (hq : ((grp.P - 1) / 2).Prime) (hG : grp.G = 2) (hP8 : grp.P % 8 = 7)
    (password : Bytes) :
    ∃ k, (grp.G : ZMod grp.P) ^ k = (secretToElement grp mac password).val := by
  obtain ⟨hsquare, hzero, hone⟩ := generator_square hG hP8
  exact SafePrime.exists_pow_eq hq hsquare hzero hone (isSquare_secretToElement grp mac password)
    (cast_ne_zero (secretToElement_ne_zero grp mac password))

/-- So masking under a password shifts the exponent. -/
theorem mask_eq {mac : Mac} {password : Bytes} {k : Nat}
    (hk : (grp.G : ZMod grp.P) ^ k = (secretToElement grp mac password).val) (b : Nat) :
    mask grp (publicElement grp b) (secretToElement grp mac password) =
      grp.reduce ((grp.G : ZMod grp.P) ^ (b + k)).val := by
  apply element_ext
  rw [cast_mask, cast_publicElement, ← hk, cast_reduce, ZMod.natCast_zmod_val, pow_add]

/-- An element that the server accepts and that two exponents lead to the same secret does not tell the two
apart: neither do the powers of the generator. -/
theorem publicElement_eq_of_sharedSecret_eq (hq : ((grp.P - 1) / 2).Prime) (hG : grp.G = 2)
    (hP8 : grp.P % 8 = 7) {publicA : grp.Element} (hA : grp.InRange publicA) {b b' : Nat}
    (h : sharedSecret grp publicA b = sharedSecret grp publicA b') :
    publicElement grp b = publicElement grp b' := by
  obtain ⟨hA0, hA1, hAneg⟩ := inRange_residue hA
  obtain ⟨hsquare, hzero, _⟩ := generator_square hG hP8
  have hpow : (publicA.val : ZMod grp.P) ^ b = (publicA.val : ZMod grp.P) ^ b' := by
    rw [← cast_sharedSecret, ← cast_sharedSecret, h]
  have hsq : ((publicA.val : ZMod grp.P) ^ 2) ^ b = ((publicA.val : ZMod grp.P) ^ 2) ^ b' := by
    rw [pow_right_comm, hpow, pow_right_comm]
  have hsq1 : (publicA.val : ZMod grp.P) ^ 2 ≠ 1 := by
    intro hone
    rw [pow_two] at hone
    rcases mul_self_eq_one_iff.mp hone with h | h
    · exact hA1 h
    · exact hAneg h
  apply element_ext
  rw [cast_publicElement, cast_publicElement]
  exact SafePrime.pow_eq_of_pow_eq hq (IsSquare.sq _) (pow_ne_zero 2 hA0) hsq1 hsquare hzero hsq

end Residues

/-! ### The answer to a commitment -/

variable (rt : Runtime) (grp : ModpGroup)

/-- What the server sends when it has read a first message. -/
def answer (password : Bytes) (message : WsMessage) (b : Nat) : List Frame :=
  ((runServer rt grp b password).runLive [message]).sent

/-- How many exponents of `random_exponent` make the answer pass a test. -/
def exponentsPassing (password : Bytes) (message : WsMessage) (test : List Frame → Bool) : Nat :=
  ((Finset.Icc 1 (grp.P - 2)).filter fun b => test (answer rt grp password message b)).card

variable {rt grp}

/-- A frame that is no commitment is rejected with the same text under every password and exponent. -/
theorem serverOnCommit_rejected {frame : Frame}
    (h : ∀ text commit, frame = .covenantCommit text → bytesFromHex text.toList = some commit →
      commit.length ≠ 20) :
    ∃ reason, ∀ password b, serverOnCommit rt grp b password frame = fail reason := by
  cases frame with
  | covenantCommit text =>
      refine ⟨"malformed commit", fun password b => ?_⟩
      cases hbytes : bytesFromHex text.toList with
      | none => simp only [serverOnCommit, hbytes]
      | some commit => simp only [serverOnCommit, hbytes, if_pos (h text commit rfl hbytes)]
  | _ => exact ⟨"expected commit", fun _ _ => rfl⟩

/-- The server answers a commitment with its challenge, and anything else with a text of its own. -/
theorem answer_cases (message : WsMessage) :
    (∀ password b, answer rt grp password message b = [challengeFrame rt grp b password]) ∨
      ∃ frames, ∀ password b, answer rt grp password message b = frames := by
  by_cases h : ∃ commit, ReadsCommit rt message commit
  · apply Or.inl
    obtain ⟨commit, hreads⟩ := h
    intro password b
    rw [answer, runServer_challenges hreads, runLive_recvFrame_nil]
  · apply Or.inr
    cases hparse : parseMessage rt message with
    | error exn =>
        refine ⟨[], fun password b => ?_⟩
        have hrun : runServer rt grp b password = (recvFrame rt >>= serverOnCommit rt grp b password) := rfl
        rw [answer, hrun, runLive_recvFrame_error hparse]
    | ok frame =>
        have hreject : ∀ text commit, frame = .covenantCommit text → bytesFromHex text.toList = some commit →
            commit.length ≠ 20 := by
          rintro text commit rfl hbytes hlength
          exact h ⟨commit, text, hparse, hbytes, hlength⟩
        obtain ⟨reason, hfail⟩ := @serverOnCommit_rejected rt grp frame hreject
        refine ⟨[.authFail reason], fun password b => ?_⟩
        have hrun : runServer rt grp b password = (recvFrame rt >>= serverOnCommit rt grp b password) := rfl
        rw [answer, hrun, runLive_recvFrame_ok hparse, hfail, runLive_fail]

/-- A shift of the exponent stands for the password: the answer is a function of the power of the generator,
which repeats after `(P - 1) / 2` exponents. -/
theorem answer_shift [Fact grp.P.Prime] (hq : ((grp.P - 1) / 2).Prime) (hG : grp.G = 2)
    (hP8 : grp.P % 8 = 7) (message : WsMessage) :
    ∃ frames : Nat → List Frame, Function.Periodic frames ((grp.P - 1) / 2) ∧
      ∀ password, ∃ shift, ∀ b, answer rt grp password message b = frames (b + shift) := by
  rcases @answer_cases rt grp message with h | ⟨frames, h⟩
  · obtain ⟨hsquare, hzero, _⟩ := generator_square hG hP8
    have hperiod := SafePrime.periodic_pow hq hsquare hzero
    let challenge (x : ZMod grp.P) : List Frame := [.covenantChallenge (elementHex grp (grp.reduce x.val))]
    refine ⟨fun k => challenge ((grp.G : ZMod grp.P) ^ k), hperiod.comp challenge, ?_⟩
    intro password
    obtain ⟨k, hk⟩ := exists_exponent rt.hmac hq hG hP8 password
    refine ⟨k, fun b => ?_⟩
    rw [h, challengeFrame, mask_eq hk]
  · refine ⟨fun _ => frames, fun _ => rfl, ?_⟩
    intro password
    exact ⟨0, fun b => h password b⟩

/-- The challenge hides the password. What the server sends in answer to a first message, whatever it is, is
the same under one password as under another for suitable exponents; and a test of the answer, of any kind,
passes for as many of the `P - 2` exponents under one password as under another, give or take one. -/
theorem challenge_hides_password (rt : Runtime) (grp : ModpGroup) (hP : grp.P.Prime)
    (hq : ((grp.P - 1) / 2).Prime) (hG : grp.G = 2) (hP8 : grp.P % 8 = 7) (message : WsMessage)
    (password password' : Bytes) :
    (∀ b, IsExponent grp b → ∃ b', IsExponent grp b' ∧
      answer rt grp password' message b' = answer rt grp password message b) ∧
    ∀ test : List Frame → Bool,
      exponentsPassing rt grp password message test ≤ exponentsPassing rt grp password' message test + 1 := by
  have : Fact grp.P.Prime := ⟨hP⟩
  obtain ⟨frames, hperiod, hshift⟩ := @answer_shift rt grp _ hq hG hP8 message
  obtain ⟨shift, hframes⟩ := hshift password
  obtain ⟨shift', hframes'⟩ := hshift password'
  have hone := grp.one_lt_P
  constructor
  · intro b _
    obtain ⟨b', hlow, hhigh, hsame⟩ := SafePrime.exists_shift hq.pos hperiod b shift shift'
    refine ⟨b', ⟨hlow, by omega⟩, ?_⟩
    rw [hframes, hframes', hsame]
  · intro test
    have hexponents : Finset.Icc 1 (grp.P - 2) = Finset.Ico 1 (grp.P - 1) := by
      ext b
      rw [Finset.mem_Icc, Finset.mem_Ico]
      omega
    have htwice : grp.P - 1 = (grp.P - 1) / 2 + (grp.P - 1) / 2 := by
      have hp := (SafePrime.half_eq hq).2
      omega
    have hperiodic : Function.Periodic (fun k => test (frames k) = true) (grp.P - 1) := by
      rw [htwice]
      exact (hperiod.add_period hperiod).comp fun seen => test seen = true
    have hle := SafePrime.card_shift_le (by omega) _ hperiodic shift shift'
    simp only [exponentsPassing, hexponents, hframes, hframes']
    exact hle

/-- The group of the program meets the two conditions on the generator. -/
example : group14.G = 2 ∧ group14.P % 8 = 7 := by decide

/-- The challenges of the password `alpha` and of the password `beta` to one commitment, with the group
modulo 23. -/
theorem challenge_hides_password_group23 :
    ∃ b', IsExponent group23 b' ∧
      answer (sampleRuntime hmacSha256) group23 (asciiBytes "beta")
          (wire (sampleRuntime hmacSha256) (commitFrame group23 3)) b' =
        answer (sampleRuntime hmacSha256) group23 (asciiBytes "alpha")
          (wire (sampleRuntime hmacSha256) (commitFrame group23 3)) 4 :=
  (challenge_hides_password (sampleRuntime hmacSha256) group23 (by decide) (by decide) rfl (by decide)
    (wire (sampleRuntime hmacSha256) (commitFrame group23 3)) (asciiBytes "alpha") (asciiBytes "beta")).1 4
    (by decide)

/-! ### What an attempt tests -/

/-- An attempt to log in: the challenge that the opponent has been sent, and what it has sent. -/
structure Attempt where
  challenge : Frame
  inputs : List WsMessage

/-- The server accepts the attempt, with the password and the exponent. -/
def Attempt.Passes (rt : Runtime) (grp : ModpGroup) (attempt : Attempt) (password : Bytes) (b : Nat) : Prop :=
  ((runServer rt grp b password).runLive attempt.inputs).sent.head? = some attempt.challenge ∧
    ∃ session, ((runServer rt grp b password).runLive attempt.inputs).outcome = .returned session

/-- The frames of an accepted attempt. -/
theorem Attempt.Passes.reads {attempt : Attempt} {password : Bytes} {b : Nat}
    (h : attempt.Passes rt grp password b) :
    ∃ message message' rest commit publicA, attempt.inputs = message :: message' :: rest ∧
      ReadsCommit rt message commit ∧
      ReadsConfirm rt grp commit message' publicA (expectedConfirm rt grp b commit publicA) ∧
      attempt.challenge = challengeFrame rt grp b password := by
  obtain ⟨hchallenge, session, hreturned⟩ := h
  have hrun := @runServer_spec rt grp b password attempt.inputs
  generalize attempt.inputs = inputs at *
  generalize (runServer rt grp b password).runLive inputs = trace at *
  cases hrun with
  | accepted hreads hreads' =>
      exact ⟨_, _, _, _, _, rfl, hreads, hreads', (Option.some.inj hchallenge).symm⟩
  | _ => cases hreturned

/-- The inputs of the MAC in the confirmations that the server expects of attempts, with the exponents. -/
def expectedInputs (rt : Runtime) (grp : ModpGroup) (attempts : List Attempt) (exponents : Set Nat) :
    Set (Bytes × Bytes) :=
  {input | ∃ attempt ∈ attempts, ∃ message message' rest commit publicA confirmC,
    attempt.inputs = message :: message' :: rest ∧ ReadsCommit rt message commit ∧
    ReadsConfirm rt grp commit message' publicA confirmC ∧
    ∃ b ∈ exponents, input = confirmInput grp (sharedSecret grp publicA b) commit clientRole publicA}

/-- Two passwords under which the server accepts one attempt have one password element. -/
theorem Attempt.Passes.element_eq {attempts : List Attempt} {exponents : Set Nat}
    (hfree : CollisionFree rt.hmac (expectedInputs rt grp attempts exponents)) (hP : grp.P.Prime)
    (hq : ((grp.P - 1) / 2).Prime) (hG : grp.G = 2) (hP8 : grp.P % 8 = 7) {attempt : Attempt}
    (hattempt : attempt ∈ attempts) {password password' : Bytes} {b b' : Nat} (hb : b ∈ exponents)
    (hb' : b' ∈ exponents) (h : attempt.Passes rt grp password b)
    (h' : attempt.Passes rt grp password' b') :
    secretToElement grp rt.hmac password = secretToElement grp rt.hmac password' := by
  have : Fact grp.P.Prime := ⟨hP⟩
  obtain ⟨message, message', rest, commit, publicA, hinputs, hreads, hreads', hchallenge⟩ := h.reads
  obtain ⟨_, _, _, commit', publicA', hinputs', hcommit, hconfirm, hchallenge'⟩ := h'.reads
  rw [hinputs] at hinputs'
  cases hinputs'
  obtain rfl := readsCommit_unique hreads hcommit
  have hexpected : ∀ c ∈ exponents, confirmInput grp (sharedSecret grp publicA' c) commit clientRole publicA' ∈
      expectedInputs rt grp attempts exponents :=
    fun c hc => ⟨attempt, hattempt, _, _, _, _, _, _, hinputs, hreads, hconfirm, c, hc, rfl⟩
  obtain ⟨text, hparse, hA, hdigest⟩ := hreads'
  obtain ⟨text', hparse', hA', hdigest'⟩ := hconfirm
  rw [hparse] at hparse'
  have hframe := Frame.covenantConfirm.inj (Except.ok.inj hparse')
  rw [hframe.1, hA'] at hA
  obtain rfl := Except.ok.inj hA
  have hshared : sharedSecret grp publicA' b = sharedSecret grp publicA' b' :=
    (confirmMac_inj hfree (hexpected b hb) (hexpected b' hb') rfl (.inl rfl) (.inl rfl) hframe.2).1
  have hpublic := publicElement_eq_of_sharedSecret_eq hq hG hP8 (parseElement_inRange hA').1 hshared
  rw [hchallenge] at hchallenge'
  have hmask := grp.toBytes_injective (hexString_injective (Frame.covenantChallenge.inj hchallenge'))
  rw [hpublic] at hmask
  have hcast := congrArg (fun x : grp.Element => (x.val : ZMod grp.P)) hmask
  simp only [cast_mask, cast_publicElement] at hcast
  exact element_ext (mul_left_cancel₀ (pow_ne_zero b' (generator_square hG hP8).2.1) hcast)

/-- An attempt to log in tests one password element: in any number of attempts, with any messages after any
challenges, an opponent tests at most as many elements, and with a password of another element the server
accepts none of the attempts, whatever exponents it draws. The exponents are those on whose confirmations the
MAC has no collisions. -/
theorem attempts_test_passwords (rt : Runtime) (grp : ModpGroup) (attempts : List Attempt)
    (exponents : Set Nat) (hfree : CollisionFree rt.hmac (expectedInputs rt grp attempts exponents))
    (hP : grp.P.Prime) (hq : ((grp.P - 1) / 2).Prime) (hG : grp.G = 2) (hP8 : grp.P % 8 = 7) :
    ∃ tested : List grp.Element, tested.length ≤ attempts.length ∧
      ∀ password, secretToElement grp rt.hmac password ∉ tested →
        ∀ attempt ∈ attempts, ∀ b ∈ exponents, ¬ attempt.Passes rt grp password b := by
  -- The induction runs over a part of the attempts; the assumption speaks of all of them.
  suffices hpart : ∀ part : List Attempt, part ⊆ attempts →
      ∃ tested : List grp.Element, tested.length ≤ part.length ∧
        ∀ password, secretToElement grp rt.hmac password ∉ tested →
          ∀ attempt ∈ part, ∀ b ∈ exponents, ¬ attempt.Passes rt grp password b from
    hpart attempts (List.Subset.refl _)
  intro part
  induction part with
  | nil =>
      intro _
      exact ⟨[], le_rfl, fun _ _ attempt hattempt => absurd hattempt List.not_mem_nil⟩
  | cons attempt part ih =>
      intro hsubset
      obtain ⟨hattempt, hrest⟩ := List.cons_subset.mp hsubset
      obtain ⟨tested, hlength, htested⟩ := ih hrest
      by_cases h : ∃ password, ∃ b ∈ exponents, attempt.Passes rt grp password b
      · obtain ⟨guess, b, hb, hguess⟩ := h
        refine ⟨secretToElement grp rt.hmac guess :: tested, Nat.succ_le_succ hlength, ?_⟩
        intro password hnot
        rw [List.mem_cons, not_or] at hnot
        rw [List.forall_mem_cons]
        refine ⟨fun b' hb' hpasses => ?_, htested password hnot.2⟩
        exact hnot.1 (hpasses.element_eq hfree hP hq hG hP8 hattempt hb' hb hguess)
      · refine ⟨tested, Nat.le_succ_of_le hlength, ?_⟩
        intro password hnot
        rw [List.forall_mem_cons]
        exact ⟨fun b hb hpasses => h ⟨password, b, hb, hpasses⟩, htested password hnot⟩

/-- The attempt of a client that knows the password. -/
def honestAttempt (rt : Runtime) (grp : ModpGroup) (a b : Nat) (password : Bytes) : Attempt where
  challenge := challengeFrame rt grp b password
  inputs := [wire rt (commitFrame grp a), wire rt (confirmFrame rt grp a (publicElement grp b))]

/-- It is accepted. -/
theorem honestAttempt_passes {a b : Nat} {password : Bytes}
    (hcommit : loads rt (dumps rt (commitFrame grp a)) = .ok (commitFrame grp a))
    (hconfirm : loads rt (dumps rt (confirmFrame rt grp a (publicElement grp b))) =
      .ok (confirmFrame rt grp a (publicElement grp b)))
    (hA : grp.InRange (publicElement grp a)) :
    (honestAttempt rt grp a b password).Passes rt grp password b := by
  have hreads : ReadsCommit rt (wire rt (commitFrame grp a)) (commitDigest grp (publicElement grp a)) :=
    ⟨_, hcommit, by rw [toList_hexString, bytesFromHex_hexChars], length_commitDigest grp _⟩
  have hreveals : ReadsConfirm rt grp (commitDigest grp (publicElement grp a))
      (wire rt (confirmFrame rt grp a (publicElement grp b))) (publicElement grp a)
      (expectedConfirm rt grp b (commitDigest grp (publicElement grp a)) (publicElement grp a)) := by
    refine ⟨elementHex grp (publicElement grp a), ?_, parseElement_elementHex hA, rfl⟩
    rw [expectedConfirm, ← sharedSecret_comm]
    exact hconfirm
  have hrun := @runServer_accepts rt grp b password _ _ _ _ hreads hreveals
  constructor
  · show ((runServer rt grp b password).runLive [_, _]).sent.head? = _
    rw [hrun]
    rfl
  · show ∃ session, ((runServer rt grp b password).runLive [_, _]).outcome = .returned session
    rw [hrun]
    exact ⟨_, rfl⟩

/-- One attempt of a client that knows the password tests its element, with the group modulo 23. -/
theorem attempts_test_passwords_group23 :
    ∃ tested : List group23.Element, tested.length ≤ 1 ∧
      secretToElement group23 (sampledMac handshakeSamples) (asciiBytes "alpha") ∈ tested := by
  have hdistinct : DistinctTags handshakeSamples := by decide +kernel
  obtain ⟨tested, hlength, htested⟩ := attempts_test_passwords (sampleRuntime (sampledMac handshakeSamples))
    group23 [honestAttempt (sampleRuntime (sampledMac handshakeSamples)) group23 3 4 (asciiBytes "alpha")]
    Set.univ (collisionFree_sampledMac hdistinct _) (by decide) (by decide) rfl (by decide)
  refine ⟨tested, hlength, ?_⟩
  by_contra hnot
  exact htested (asciiBytes "alpha") hnot _ List.mem_cons_self 4 (Set.mem_univ 4)
    (honestAttempt_passes (loads_dumps_sample _ rfl) (loads_dumps_sample _ rfl) (by decide))

end Guessing

end Priestly
