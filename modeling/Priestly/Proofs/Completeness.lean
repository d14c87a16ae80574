/-
Module: Priestly.Proofs.Completeness
Layer: Proofs
Purpose: Two honest drivers with the same password, linked by a reliable in-order channel, always come
  to the end of the handshake: under every schedule both return, with mirrored sessions and exactly
  four frames on the wire.
Imports: Priestly.Proofs.Drivers, Priestly.Proofs.Session, Priestly.Proofs.PasswordBinding
Trusted boundary: primality of `P` and the JSON round trip of the handshake frames are hypotheses
Main exports: Mirrored, transcript, covenant_complete
-/
import Priestly.Proofs.Drivers
import Priestly.Proofs.Session
import Priestly.Proofs.PasswordBinding

namespace Priestly

open ByteCodec Interaction

/-- The frames of a handshake that succeeds. -/
def Frame.IsHandshake : Frame → Prop
  | .covenantCommit _ | .covenantChallenge _ | .covenantConfirm _ _ | .authOk _ => True
  | _ => False

/-- Two sessions that face each other: each receives with the key the other sends with, and no frame
has been sent or accepted on either side. -/
structure Mirrored (client server : SessionState) : Prop where
  client_to_server : client.txMac = server.rxMac
  server_to_client : server.txMac = client.rxMac
  client_dir : client.txDir = server.rxDir
  server_dir : server.txDir = client.rxDir
  client_counters : client.txSeq = 0 ∧ client.rxSeq = 0
  server_counters : server.txSeq = 0 ∧ server.rxSeq = 0

/-- The two sessions made from one set of keys mirror each other. -/
theorem mirrored_new (keys : SessionKeys) (compress compress' : Bool) :
    Mirrored (.new keys true compress) (.new keys false compress') where
  client_to_server := rfl
  server_to_client := rfl
  client_dir := rfl
  server_dir := rfl
  client_counters := ⟨rfl, rfl⟩
  server_counters := ⟨rfl, rfl⟩

/-- The first frame a fresh session seals is opened by a session that faces it. -/
theorem first_frame_opens (rt : Runtime) {sender receiver : SessionState}
    (hkey : sender.txMac = receiver.rxMac) (hdir : sender.txDir = receiver.rxDir)
    (hepoch : sender.epoch = 0) (htx : sender.txSeq = 0) (hrx : receiver.rxSeq = 0)
    {plaintext : Bytes} (hlength : plaintext.length < 2 ^ 32) :
    ∃ frame, (sender.seal rt.hmac plaintext).1 = .ok frame ∧
      (receiver.open rt frame).1 = .ok plaintext := by
  have hseals : ∃ frame, (sender.seal rt.hmac plaintext).1 = .ok frame := by
    apply SessionState.seal_ok_iff.mpr
    rw [hepoch, htx]
    exact ⟨fun _ => hlength, by omega, by omega⟩
  obtain ⟨frame, hframe⟩ := hseals
  refine ⟨frame, hframe, ?_⟩
  have hopen : receiver.open rt frame = (.ok plaintext, { receiver with rxSeq := sender.txSeq + 1 }) :=
    SessionState.open_sealed (Prod.ext hframe (SessionState.seal_snd sender rt.hmac plaintext))
      hdir.symm hkey.symm (by rw [hrx, htx]; omega)
  rw [hopen]

section Handshake

variable (rt : Runtime) (grp : ModpGroup) (a b : Nat) (password : Bytes)

/-- The secret the two sides share. -/
def honestSecret : grp.Element := sharedSecret grp (publicElement grp b) a

/-- The four frames of the handshake, in order. -/
def transcript : List Frame :=
  let publicA := publicElement grp a
  let commit := commitDigest grp publicA
  let shared := honestSecret grp a b
  [.covenantCommit (hexString commit),
    .covenantChallenge (elementHex grp
      (mask grp (publicElement grp b) (secretToElement grp rt.hmac password))),
    .covenantConfirm (elementHex grp publicA)
      (hexString (confirmMac grp rt.hmac shared commit clientRole publicA)),
    .authOk (hexString (confirmMac grp rt.hmac shared commit serverRole (publicElement grp b)))]

/-- What the end of the handshake looks like. -/
def Completed (link : Link WsMessage Frame Exn SessionState SessionState) : Prop :=
  link =
    { left := .done (.new (sessionKeys grp rt.hmac (honestSecret grp a b)) true true)
      right := .done (.new (sessionKeys grp rt.hmac (honestSecret grp a b)) false true)
      toLeft := []
      toRight := []
      wire := transcript rt grp a b password }

end Handshake

/-! ### Steps of two linked drivers -/

section Steps

variable {rt : Runtime} {α β : Type} {goal : Link WsMessage Frame Exn α β → Prop}
variable {frame : Frame} {toLeft toRight sent : List Frame}
variable {k : Frame → Driver α} {k' : Frame → Driver β}

/-- The client writes while the server waits. -/
theorem client_writes {next : Unit → Driver α}
    (h : Inevitable (LinkStep (wire rt)) goal
      ⟨next (), recvFrame rt >>= k', toLeft, [frame], sent ++ [frame]⟩) :
    Inevitable (LinkStep (wire rt)) goal
      ⟨Program.emit frame >>= next, recvFrame rt >>= k', toLeft, [], sent⟩ := by
  rw [recvFrame_bind] at h ⊢
  exact inevitable_leftSend h

/-- The server writes while the client waits. -/
theorem server_writes {next : Unit → Driver β}
    (h : Inevitable (LinkStep (wire rt)) goal
      ⟨recvFrame rt >>= k, next (), [frame], toRight, sent ++ [frame]⟩) :
    Inevitable (LinkStep (wire rt)) goal
      ⟨recvFrame rt >>= k, Program.emit frame >>= next, [], toRight, sent⟩ := by
  rw [recvFrame_bind] at h ⊢
  exact inevitable_rightSend h

/-- The server reads a frame that parses while the client waits. -/
theorem server_reads (hparse : parseMessage rt (wire rt frame) = .ok frame)
    (h : Inevitable (LinkStep (wire rt)) goal
      ⟨recvFrame rt >>= k, k' frame, [], toRight, sent⟩) :
    Inevitable (LinkStep (wire rt)) goal
      ⟨recvFrame rt >>= k, recvFrame rt >>= k', [], frame :: toRight, sent⟩ := by
  rw [recvFrame_bind k] at h ⊢
  rw [recvFrame_bind k']
  apply inevitable_rightRecv
  simp only [hparse, Program.lift_ok, Program.done_bind]
  exact h

/-- The client reads a frame that parses while the server waits. -/
theorem client_reads (hparse : parseMessage rt (wire rt frame) = .ok frame)
    (h : Inevitable (LinkStep (wire rt)) goal
      ⟨k frame, recvFrame rt >>= k', toLeft, [], sent⟩) :
    Inevitable (LinkStep (wire rt)) goal
      ⟨recvFrame rt >>= k, recvFrame rt >>= k', frame :: toLeft, [], sent⟩ := by
  rw [recvFrame_bind k'] at h ⊢
  rw [recvFrame_bind k]
  apply inevitable_leftRecv
  simp only [hparse, Program.lift_ok, Program.done_bind]
  exact h

/-- The client reads the last frame of a server that has returned. -/
theorem client_reads_last {value : β} (hparse : parseMessage rt (wire rt frame) = .ok frame)
    (h : Inevitable (LinkStep (wire rt)) goal ⟨k frame, .done value, toLeft, toRight, sent⟩) :
    Inevitable (LinkStep (wire rt)) goal
      ⟨recvFrame rt >>= k, .done value, frame :: toLeft, toRight, sent⟩ := by
  rw [recvFrame_bind]
  apply inevitable_leftRecv_done
  simp only [hparse, Program.lift_ok, Program.done_bind]
  exact h

end Steps

/-! ### The handshake -/

section Handshake

variable {rt : Runtime} {grp : ModpGroup} {a b : Nat} {password : Bytes}

/-- Linked back to back, the two drivers have one step at a time to take, and the eighth step ends the
handshake. -/
theorem handshake_inevitable (hP : grp.P.Prime)
    (hwire : ∀ frame : Frame, frame.IsHandshake → loads rt (dumps rt frame) = .ok frame)
    (hA : grp.InRange (publicElement grp a))
    (hM : grp.InRange (mask grp (publicElement grp b) (secretToElement grp rt.hmac password))) :
    Inevitable (LinkStep (wire rt)) (Completed rt grp a b password)
      (Link.start (runClient rt grp a password) (runServer rt grp b password)) := by
  have : Fact grp.P.Prime := ⟨hP⟩
  have hparse : ∀ frame : Frame, frame.IsHandshake → parseMessage rt (wire rt frame) = .ok frame :=
    fun frame hframe => hwire frame hframe
  have hunmask := unmask_mask (publicElement grp b) (secretToElement_ne_zero grp rt.hmac password)
  have hbytes : bytesFromHex (hexString (commitDigest grp (publicElement grp a))).toList =
      some (commitDigest grp (publicElement grp a)) := by
    rw [toList_hexString, bytesFromHex_hexChars]
  have hsecret : sharedSecret grp (publicElement grp a) b = honestSecret grp a b :=
    (sharedSecret_comm grp a b).symm
  unfold Link.start runClient runServer
  -- The commitment travels to the server.
  apply client_writes
  apply server_reads (hparse (.covenantCommit _) trivial)
  rw [serverOnCommit_ok hbytes (length_commitDigest grp _), serverChallenges]
  -- The challenge travels to the client.
  apply server_writes
  apply client_reads (hparse (.covenantChallenge _) trivial)
  rw [clientOnChallenge_ok (parseElement_elementHex hM) hunmask, clientConfirms]
  -- The confirmation travels to the server.
  apply client_writes
  apply server_reads (hparse (.covenantConfirm _ _) trivial)
  rw [← honestSecret, ← hsecret, ← expectedConfirm,
    serverOnConfirm_ok (parseElement_elementHex hA) rfl]
  -- The verdict travels to the client.
  apply server_writes
  rw [hsecret]
  apply client_reads_last (hparse (.authOk _) trivial)
  rw [clientOnResult_expected, expectedConfirm, hsecret]
  exact .here rfl

end Handshake

/-- With the same password on both sides, and elements that pass the range check of the drivers, every
schedule of the two drivers over a reliable in-order channel ends with both returning, exactly the
frames `COMMIT`, `CHALLENGE`, `CONFIRM`, `AUTH_OK` on the wire, and sessions that mirror each other; so
the first frame either side seals is opened by the other. -/
theorem covenant_complete (rt : Runtime) (grp : ModpGroup) (hP : grp.P.Prime)
    (hwire : ∀ frame : Frame, frame.IsHandshake → loads rt (dumps rt frame) = .ok frame)
    (password : Bytes) {a b : Nat} {publicA maskedB : grp.Element}
    (hA : parseElement rt grp (elementHex grp (publicElement grp a)) = .ok publicA)
    (hM : parseElement rt grp (elementHex grp
      (mask grp (publicElement grp b) (secretToElement grp rt.hmac password))) = .ok maskedB) :
    ∃ client server : SessionState,
      Inevitable (LinkStep (wire rt))
        (fun link => link = { left := .done client, right := .done server, toLeft := [],
                              toRight := [], wire := transcript rt grp a b password })
        (Link.start (runClient rt grp a password) (runServer rt grp b password)) ∧
      Mirrored client server ∧
      ∀ plaintext : Bytes, plaintext.length < 2 ^ 32 →
        (∃ frame, (client.seal rt.hmac plaintext).1 = .ok frame ∧
          (server.open rt frame).1 = .ok plaintext) ∧
        (∃ frame, (server.seal rt.hmac plaintext).1 = .ok frame ∧
          (client.open rt frame).1 = .ok plaintext) := by
  have hmirror := mirrored_new (sessionKeys grp rt.hmac (honestSecret grp a b)) true true
  refine ⟨_, _, handshake_inevitable hP hwire (inRange_of_parseElement_elementHex hA)
    (inRange_of_parseElement_elementHex hM), hmirror, ?_⟩
  intro plaintext hlength
  constructor
  · exact first_frame_opens rt hmirror.client_to_server hmirror.client_dir rfl rfl rfl hlength
  · exact first_frame_opens rt hmirror.server_to_client hmirror.server_dir rfl rfl rfl hlength

/-- The handshake over the group modulo 23 with the exponents 3 and 4. -/
theorem covenant_complete_group23 :
    ∃ client server : SessionState,
      Inevitable (LinkStep (wire (sampleRuntime hmacSha256)))
        (fun link => link = { left := .done client, right := .done server, toLeft := [],
                              toRight := [],
                              wire := transcript (sampleRuntime hmacSha256) group23 3 4
                                (asciiBytes "alpha") })
        (Link.start (runClient (sampleRuntime hmacSha256) group23 3 (asciiBytes "alpha"))
          (runServer (sampleRuntime hmacSha256) group23 4 (asciiBytes "alpha"))) ∧
      Mirrored client server ∧
      ∀ plaintext : Bytes, plaintext.length < 2 ^ 32 →
        (∃ frame, (client.seal hmacSha256 plaintext).1 = .ok frame ∧
          (server.open (sampleRuntime hmacSha256) frame).1 = .ok plaintext) ∧
        (∃ frame, (server.seal hmacSha256 plaintext).1 = .ok frame ∧
          (client.open (sampleRuntime hmacSha256) frame).1 = .ok plaintext) := by
  have hwire : ∀ frame : Frame, frame.IsHandshake →
      loads (sampleRuntime hmacSha256) (dumps (sampleRuntime hmacSha256) frame) = .ok frame := by
    intro frame hframe
    apply loads_dumps_sample
    cases frame with
    | covenantCommit _ | covenantChallenge _ | covenantConfirm _ _ | authOk _ => rfl
    | _ => exact hframe.elim
  have hA : parseElement (sampleRuntime hmacSha256) group23
      (elementHex group23 (publicElement group23 3)) = .ok (group23.reduce 8) := by
    decide +kernel
  have hM : parseElement (sampleRuntime hmacSha256) group23
      (elementHex group23 (mask group23 (publicElement group23 4)
        (secretToElement group23 hmacSha256 (asciiBytes "alpha")))) =
        .ok (mask group23 (publicElement group23 4)
          (secretToElement group23 hmacSha256 (asciiBytes "alpha"))) := by
    decide +kernel
  exact covenant_complete (sampleRuntime hmacSha256) group23 (by decide) hwire (asciiBytes "alpha")
    hA hM

end Priestly
