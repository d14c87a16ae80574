/-
Module: Priestly.Proofs.Channel
Layer: Proofs
Purpose: The sealed channel is an exact anti-replay channel. In every run, a side opens a frame exactly
  when it carries a frame the other side sealed under a number above all accepted ones, and what it has
  returned is a subsequence of what the other side sealed.
Imports: Priestly.Lib.KeyedList, Priestly.Protocol.Channel, Priestly.Proofs.Session
Trusted boundary: the tags under the two keys come from the two sides
Main exports: Seals.verify, Seals.carries_of_authenticates, Channel.sound, sealed_channel_exact
-/
import Priestly.Lib.KeyedList
import Priestly.Protocol.Channel
import Priestly.Proofs.Session
import Priestly.Python.SampleRuntime

namespace Priestly

open ByteCodec

/-! ### One sealed frame and one receiver -/

namespace SessionState

variable {rt : Runtime} {sender receiver : SessionState} {plaintext : Bytes}
  {frame original : SealedFrame}

/-- The parts of a sealed frame. -/
theorem Seals.parts {mac : Mac} (h : sender.Seals mac plaintext original) :
    ∃ body message, sender.body plaintext = .ok body ∧
      tagMessage sender.epoch original.seq sender.txDir body = .ok message ∧
      original = { epoch := sender.epoch, seq := original.seq, direction := sender.txDir,
                   payload := b64encode body, tag := sign mac sender.txMac message } := by
  obtain ⟨body, hbody, h⟩ := bind_eq_ok h
  obtain ⟨tag, htag, h⟩ := bind_eq_ok h
  obtain ⟨message, hmessage, rfl⟩ := computeTag_eq_ok htag
  exact ⟨body, message, hbody, hmessage, (Except.ok.inj h).symm⟩

/-- A frame that carries a sealed one is verified by a receiver of its key and direction that has not
seen its number, and unpacks to the plaintext. -/
theorem Seals.verify (h : sender.Seals rt.hmac plaintext original) (hcarries : frame.Carries original)
    (hdir : receiver.rxDir = sender.txDir) (hkey : receiver.rxMac = sender.txMac)
    (hseq : receiver.rxSeq < frame.seq) :
    ∃ body, receiver.verify rt frame = .ok body ∧ unpack body = .ok plaintext := by
  obtain ⟨body, message, hbody, hmessage, horiginal⟩ := h.parts
  obtain ⟨decoded, hdecode, hdecode'⟩ := hcarries.body
  have hsame : decoded = body := by
    rw [horiginal] at hdecode'
    exact Except.ok.inj (hdecode'.symm.trans (b64decode_b64encode body))
  have hdirection : frame.direction = sender.txDir := by
    rw [hcarries.direction, horiginal]
  have hepoch : frame.epoch = sender.epoch := by
    rw [hcarries.epoch, horiginal]
  have htag : frame.tag = sign rt.hmac sender.txMac message := by
    rw [hcarries.tag, horiginal]
  subst hsame
  refine ⟨decoded, verify_eq_ok_iff.mpr ⟨?_, hdecode, ⟨message, ?_, ?_⟩, hseq⟩, unpack_body hbody⟩
  · rw [hdirection, hdir]
  · rw [hepoch, hcarries.seq, hdirection]
    exact hmessage
  · rw [htag, hkey]

/-- A verified frame carries a frame that was sealed over the same input with the key and direction of
the receiver. -/
theorem Seals.carries_of_authenticates (h : sender.Seals rt.hmac plaintext original)
    (hdir : receiver.rxDir = sender.txDir) (hkey : receiver.rxMac = sender.txMac) {body input : Bytes}
    (hverify : receiver.verify rt frame = .ok body)
    (hinput : tagMessage frame.epoch frame.seq frame.direction body = .ok input)
    (hsame : original.Authenticates input) : frame.Carries original := by
  obtain ⟨sealedBody, message, _, hmessage, horiginal⟩ := h.parts
  obtain ⟨hdirection, hdecode, ⟨input', hinput', htag⟩, _⟩ := SessionState.verify_eq_ok_iff.mp hverify
  rw [hinput] at hinput'
  obtain rfl := Except.ok.inj hinput'
  obtain ⟨decoded, hdecoded, hauthenticated⟩ := hsame
  have hpayload : decoded = sealedBody := by
    rw [horiginal] at hdecoded
    exact Except.ok.inj (hdecoded.symm.trans (b64decode_b64encode sealedBody))
  obtain ⟨hepoch, hseq, _, rfl⟩ := tagMessage_inj hinput hauthenticated
  have hmessage' : message = input := by
    rw [horiginal, hpayload] at hauthenticated
    exact Except.ok.inj (hmessage.symm.trans hauthenticated)
  constructor
  · rw [hdirection, hdir, horiginal]
  · exact hepoch
  · exact hseq
  · rw [htag, hkey, horiginal, hmessage']
  · exact ⟨body, hdecode, hdecoded⟩

/-- A sealed frame and a frame that claims the same input have the same direction byte. -/
theorem Seals.directionByte_eq (h : sender.Seals rt.hmac plaintext original) {body input : Bytes}
    (hinput : tagMessage frame.epoch frame.seq frame.direction body = .ok input)
    (hsame : original.Authenticates input) :
    directionByte frame.direction = directionByte sender.txDir := by
  obtain ⟨_, _, _, _, horiginal⟩ := h.parts
  obtain ⟨_, _, hauthenticated⟩ := hsame
  obtain ⟨_, _, hbyte, _⟩ := tagMessage_inj hinput hauthenticated
  rw [hbyte, horiginal]

end SessionState

/-! ### The history of one side -/

/-- The session a side of the channel starts with. -/
def Channel.base (keys : SessionKeys) (compress : Role → Bool) (role : Role) : SessionState :=
  .new keys (role = .client) (compress role)

/-- What holds of the sending half of a side at any time: apart from the counters it is the session it
started as, and it sealed its frames under increasing numbers from one on, up to its counter. -/
structure Endpoint.Sends (rt : Runtime) (base : SessionState) (e : Endpoint) : Prop where
  session : e.session = { base with txSeq := e.session.txSeq, rxSeq := e.session.rxSeq }
  seals : ∀ entry ∈ e.sent, base.Seals rt.hmac entry.1 entry.2
  increasing : Increasing (fun entry => entry.2.seq) e.sent
  counter : 0 ≤ e.session.txSeq
  range : ∀ entry ∈ e.sent, 0 < entry.2.seq ∧ entry.2.seq ≤ e.session.txSeq

/-- What holds of a side at any time: it also remembers the last number it accepted. -/
structure Endpoint.Sound (rt : Runtime) (base : SessionState) (e : Endpoint) : Prop where
  sends : e.Sends rt base
  seen : ∀ entry ∈ e.accepted, entry.1.seq ≤ e.session.rxSeq
  last : e.session.rxSeq = 0 ∨ ∃ entry ∈ e.accepted, entry.1.seq = e.session.rxSeq

namespace Endpoint

variable {rt : Runtime} {base : SessionState} {e : Endpoint}

/-- A fresh session has sent nothing. -/
theorem sends_start (keys : SessionKeys) (isClient compress : Bool) :
    Endpoint.Sends rt (.new keys isClient compress)
      { session := .new keys isClient compress, sent := [], accepted := [] } := by
  constructor
  · rfl
  · intro entry hentry
    cases hentry
  · exact Increasing.nil
  · exact le_refl _
  · intro entry hentry
    cases hentry

/-- Sealing appends the frame of the plaintext under the next number, or nothing when it raises; the
counter moves in either case. -/
theorem push_cases (e : Endpoint) (mac : Mac) (plaintext : Bytes) :
    (∃ frame, (e.session.seal mac plaintext).1 = .ok frame ∧ e.push mac plaintext =
        { session := { e.session with txSeq := e.session.txSeq + 1 },
          sent := e.sent ++ [(plaintext, frame)], accepted := e.accepted }) ∨
    (∃ exn, (e.session.seal mac plaintext).1 = .error exn) ∧ e.push mac plaintext =
      { e with session := { e.session with txSeq := e.session.txSeq + 1 } } := by
  cases hframe : (e.session.seal mac plaintext).1 with
  | ok frame =>
      have hseal : e.session.seal mac plaintext =
          (.ok frame, { e.session with txSeq := e.session.txSeq + 1 }) :=
        Prod.ext hframe (SessionState.seal_snd e.session mac plaintext)
      exact .inl ⟨frame, rfl, by rw [Endpoint.push, hseal]⟩
  | error exn =>
      have hseal : e.session.seal mac plaintext =
          (.error exn, { e.session with txSeq := e.session.txSeq + 1 }) :=
        Prod.ext hframe (SessionState.seal_snd e.session mac plaintext)
      exact .inr ⟨⟨exn, rfl⟩, by rw [Endpoint.push, hseal]⟩

/-- What a side seals is sealed by the session it started as, under the next number. -/
theorem Sends.seals_of_seal (h : e.Sends rt base) {plaintext : Bytes} {frame : SealedFrame}
    (hframe : (e.session.seal rt.hmac plaintext).1 = .ok frame) :
    frame.seq = e.session.txSeq + 1 ∧ base.Seals rt.hmac plaintext frame := by
  have hseal : e.session.seal rt.hmac plaintext =
      (.ok frame, { e.session with txSeq := e.session.txSeq + 1 }) :=
    Prod.ext hframe (SessionState.seal_snd e.session rt.hmac plaintext)
  obtain ⟨_, body, message, _, _, hparts⟩ := SessionState.seal_eq_ok hseal
  have hseq : frame.seq = e.session.txSeq + 1 := by
    rw [hparts]
  refine ⟨hseq, ?_⟩
  rw [SessionState.Seals, hseq, ← hframe, h.session]
  rfl

/-- The counter moves on without a frame. -/
theorem Sends.advance (h : e.Sends rt base) :
    Endpoint.Sends rt base { e with session := { e.session with txSeq := e.session.txSeq + 1 } } := by
  constructor
  · rw [h.session]
  · exact h.seals
  · exact h.increasing
  · exact Int.le_add_one h.counter
  · intro entry hentry
    obtain ⟨hpos, hle⟩ := h.range entry hentry
    exact ⟨hpos, Int.le_add_one hle⟩

/-- The counter moves on with the frame sealed under it. -/
theorem Sends.record (h : e.Sends rt base) {plaintext : Bytes} {frame : SealedFrame}
    (hframe : (e.session.seal rt.hmac plaintext).1 = .ok frame) :
    Endpoint.Sends rt base
      { session := { e.session with txSeq := e.session.txSeq + 1 },
        sent := e.sent ++ [(plaintext, frame)], accepted := e.accepted } := by
  obtain ⟨hseq, hseals⟩ := h.seals_of_seal hframe
  constructor
  · rw [h.session]
  · intro entry hentry
    rcases List.mem_append.mp hentry with hold | hnew
    · exact h.seals entry hold
    · rw [List.mem_singleton.mp hnew]
      exact hseals
  · apply h.increasing.concat
    intro entry hentry
    have := (h.range entry hentry).2
    show entry.2.seq < frame.seq
    omega
  · exact Int.le_add_one h.counter
  · intro entry hentry
    have := h.counter
    show 0 < entry.2.seq ∧ entry.2.seq ≤ e.session.txSeq + 1
    rcases List.mem_append.mp hentry with hold | hnew
    · have := h.range entry hold
      omega
    · rw [List.mem_singleton.mp hnew, hseq]
      omega

/-- Sealing keeps the sending half in order. -/
theorem Sends.push (h : e.Sends rt base) (plaintext : Bytes) :
    (e.push rt.hmac plaintext).Sends rt base := by
  rcases push_cases e rt.hmac plaintext with ⟨frame, hframe, hpush⟩ | ⟨_, hpush⟩
  · rw [hpush]
    exact h.record hframe
  · rw [hpush]
    exact h.advance

/-- The receive counter is no part of the sending half. -/
theorem Sends.receive (h : e.Sends rt base) (n : Int) (accepted : List (SealedFrame × Bytes)) :
    Endpoint.Sends rt base
      { session := { e.session with rxSeq := n }, sent := e.sent, accepted } := by
  constructor
  · rw [h.session]
  · exact h.seals
  · exact h.increasing
  · exact h.counter
  · exact h.range

/-- A positive number is above all accepted ones exactly when the session has not seen it. -/
theorem Sound.fresh_iff (h : e.Sound rt base) {n : Int} (hn : 0 < n) :
    (∀ entry ∈ e.accepted, entry.1.seq < n) ↔ e.session.rxSeq < n := by
  constructor
  · intro hall
    rcases h.last with hzero | ⟨entry, hentry, hseq⟩
    · omega
    · have := hall entry hentry
      omega
  · intro hlt entry hentry
    have := h.seen entry hentry
    omega

/-- Sealing keeps a side sound. -/
theorem Sound.push (h : e.Sound rt base) (plaintext : Bytes) :
    (e.push rt.hmac plaintext).Sound rt base := by
  constructor
  · exact h.sends.push plaintext
  · rcases push_cases e rt.hmac plaintext with ⟨frame, _, hpush⟩ | ⟨_, hpush⟩
    · rw [hpush]
      exact h.seen
    · rw [hpush]
      exact h.seen
  · rcases push_cases e rt.hmac plaintext with ⟨frame, _, hpush⟩ | ⟨_, hpush⟩
    · rw [hpush]
      exact h.last
    · rw [hpush]
      exact h.last

/-- A frame that is opened and returns a plaintext is recorded as accepted. -/
theorem Sound.accept (h : e.Sound rt base) {frame : SealedFrame} (plaintext : Bytes)
    (hseq : e.session.rxSeq < frame.seq) :
    Endpoint.Sound rt base
      { session := { e.session with rxSeq := frame.seq }, sent := e.sent,
        accepted := e.accepted ++ [(frame, plaintext)] } := by
  constructor
  · exact h.sends.receive frame.seq _
  · intro entry hentry
    rcases List.mem_append.mp hentry with hold | hnew
    · have := h.seen entry hold
      show entry.1.seq ≤ frame.seq
      omega
    · rw [List.mem_singleton.mp hnew]
  · exact .inr ⟨(frame, plaintext), by simp, rfl⟩

end Endpoint

/-! ### Both sides -/

/-- What holds of the channel at any time: each side is sound, and what it accepted is a subsequence of
what the other side sealed. -/
structure Channel.Sound (rt : Runtime) (keys : SessionKeys) (compress : Role → Bool) (c : Channel) :
    Prop where
  side : ∀ role, (c role).Sound rt (Channel.base keys compress role)
  matched : ∀ role, ((c role).accepted.map fun entry => (entry.1.seq, entry.2)).Sublist
    ((c role.peer).sent.map fun entry => (entry.2.seq, entry.1))

namespace Channel

variable {rt : Runtime} {keys : SessionKeys} {compress : Role → Bool} {c : Channel}

@[simp] theorem set_self (c : Channel) (role : Role) (e : Endpoint) : c.set role e role = e := by
  simp [Channel.set]

theorem set_of_ne (c : Channel) {role other : Role} (e : Endpoint) (h : other ≠ role) :
    c.set role e other = c other := by
  simp [Channel.set, h]

theorem peer_ne (role : Role) : role.peer ≠ role := by
  cases role with
  | client => decide
  | server => decide

/-- A side receives with the direction of the other. -/
theorem base_rxDir (role : Role) :
    (base keys compress role).rxDir = (base keys compress role.peer).txDir := by
  cases role with
  | client => rfl
  | server => rfl

/-- A side receives with the key of the other. -/
theorem base_rxMac (role : Role) :
    (base keys compress role).rxMac = (base keys compress role.peer).txMac := by
  cases role with
  | client => rfl
  | server => rfl

theorem base_txMac (role : Role) : (base keys compress role).txMac = keys.mac role := by
  cases role with
  | client => rfl
  | server => rfl

/-- The direction bytes separate the sides: only the other side transmits with the one a side receives. -/
theorem eq_peer_of_directionByte {role other : Role}
    (h : directionByte (base keys compress role).rxDir = directionByte (base keys compress other).txDir) :
    other = role.peer := by
  have hbytes : directionByte "server" ≠ directionByte "client" := by decide
  cases role with
  | client =>
      cases other with
      | client => exact absurd h hbytes
      | server => rfl
  | server =>
      cases other with
      | client => rfl
      | server => exact absurd h.symm hbytes

theorem Sound.rxDir (h : c.Sound rt keys compress) (role : Role) :
    (c role).session.rxDir = (base keys compress role.peer).txDir := by
  rw [(h.side role).sends.session]
  exact base_rxDir role

theorem Sound.rxMac (h : c.Sound rt keys compress) (role : Role) :
    (c role).session.rxMac = (base keys compress role.peer).txMac := by
  rw [(h.side role).sends.session]
  exact base_rxMac role

/-- A verified frame carries one that the other side sealed. -/
theorem Sound.exists_carried (h : c.Sound rt keys compress) {role : Role} {frame : SealedFrame} {body : Bytes}
    (hunforged : Unforged rt keys c frame) (hverify : (c role).session.verify rt frame = .ok body) :
    ∃ entry ∈ (c role.peer).sent, frame.Carries entry.2 := by
  obtain ⟨hdirection, hdecode, ⟨input, hinput, htag⟩, _⟩ := SessionState.verify_eq_ok_iff.mp hverify
  rw [h.rxMac role, base_txMac] at htag
  obtain ⟨other, entry, hentry, hsame⟩ := hunforged role.peer input ⟨body, hdecode, hinput⟩ htag
  have hseals := (h.side other).sends.seals entry hentry
  have hbyte : directionByte (base keys compress role).rxDir =
      directionByte (base keys compress other).txDir := by
    rw [← hseals.directionByte_eq hinput hsame, hdirection, (h.side role).sends.session]
  obtain rfl := eq_peer_of_directionByte hbyte
  exact ⟨entry, hentry, hseals.carries_of_authenticates (h.rxDir role) (h.rxMac role) hverify hinput hsame⟩

/-- Opening a frame that carries a sealed one with a new number returns the sealed plaintext. -/
theorem Sound.open_carried (h : c.Sound rt keys compress) {role : Role} {frame : SealedFrame}
    {entry : Bytes × SealedFrame} (hentry : entry ∈ (c role.peer).sent)
    (hcarries : frame.Carries entry.2) (hseq : (c role).session.rxSeq < frame.seq) :
    (c role).session.open rt frame =
      (.ok entry.1, { (c role).session with rxSeq := frame.seq }) := by
  obtain ⟨body, hverify, hunpack⟩ :=
    ((h.side role.peer).sends.seals entry hentry).verify hcarries (h.rxDir role) (h.rxMac role) hseq
  rw [SessionState.open_of_verify_ok hverify, hunpack]

/-- What `open` does with a frame whose tag is not forged: it returns what the other side sealed under
the number of the frame, or it fails and leaves the session alone. -/
theorem Sound.open_cases (h : c.Sound rt keys compress) (role : Role) {frame : SealedFrame}
    (hunforged : Unforged rt keys c frame) :
    (∃ entry ∈ (c role.peer).sent, frame.Carries entry.2 ∧ (c role).session.rxSeq < frame.seq ∧
      (c role).session.open rt frame =
        (.ok entry.1, { (c role).session with rxSeq := frame.seq })) ∨
    ∃ exn, (c role).session.open rt frame = (.error exn, (c role).session) := by
  cases hverify : (c role).session.verify rt frame with
  | error exn => exact .inr ⟨exn, SessionState.open_of_verify_error hverify⟩
  | ok body =>
      obtain ⟨_, _, _, hseq⟩ := SessionState.verify_eq_ok_iff.mp hverify
      obtain ⟨entry, hentry, hcarries⟩ := h.exists_carried hunforged hverify
      exact .inl ⟨entry, hentry, hcarries, hseq, h.open_carried hentry hcarries hseq⟩

/-- The start of every run. -/
theorem start_sound (keys : SessionKeys) (compress : Role → Bool) :
    (Channel.start keys compress).Sound rt keys compress := by
  constructor
  · intro role
    constructor
    · exact Endpoint.sends_start keys _ _
    · intro entry hentry
      cases hentry
    · exact .inl rfl
  · intro role
    exact List.Sublist.refl _

/-- A side that takes part in the channel and is replaced by a sound one leaves the sides sound. -/
theorem Sound.set_side (h : c.Sound rt keys compress) {role : Role} {e : Endpoint}
    (he : e.Sound rt (base keys compress role)) (other : Role) :
    (c.set role e other).Sound rt (base keys compress other) := by
  by_cases hother : other = role
  · rw [hother, set_self]
    exact he
  · rw [set_of_ne c e hother]
    exact h.side other

/-- Sealing keeps the channel sound: the log of one side may grow, which the other side's accepted
plaintexts do not mind. -/
theorem Sound.push (h : c.Sound rt keys compress) (role : Role) (plaintext : Bytes) :
    (c.set role ((c role).push rt.hmac plaintext)).Sound rt keys compress := by
  have hlog : (c role).sent.Sublist ((c role).push rt.hmac plaintext).sent ∧
      ((c role).push rt.hmac plaintext).accepted = (c role).accepted := by
    rcases Endpoint.push_cases (c role) rt.hmac plaintext with ⟨frame, _, hpush⟩ | ⟨_, hpush⟩
    · rw [hpush]
      exact ⟨List.sublist_append_left _ _, rfl⟩
    · rw [hpush]
      exact ⟨List.Sublist.refl _, rfl⟩
  constructor
  · exact h.set_side ((h.side role).push plaintext)
  · intro other
    by_cases hother : other = role
    · have hpeer : other.peer ≠ role := hother ▸ peer_ne other
      rw [set_of_ne c _ hpeer, hother, set_self, hlog.2]
      exact h.matched role
    · rw [set_of_ne c _ hother]
      by_cases hpeer : other.peer = role
      · have hmatched := h.matched other
        rw [hpeer] at hmatched
        rw [hpeer, set_self]
        exact hmatched.trans (hlog.1.map _)
      · rw [set_of_ne c _ hpeer]
        exact h.matched other

/-- Accepting a frame that carries a sealed one with a new number keeps the channel sound. -/
theorem Sound.accept (h : c.Sound rt keys compress) {role : Role} {frame : SealedFrame}
    {entry : Bytes × SealedFrame} (hentry : entry ∈ (c role.peer).sent)
    (hcarries : frame.Carries entry.2) (hseq : (c role).session.rxSeq < frame.seq) :
    (c.set role ((c role).present rt frame)).Sound rt keys compress := by
  rw [Endpoint.present, h.open_carried hentry hcarries hseq]
  constructor
  · exact h.set_side ((h.side role).accept entry.1 hseq)
  · intro other
    by_cases hother : other = role
    · subst hother
      rw [set_of_ne c _ (peer_ne other), set_self, List.map_append]
      have hincreasing : Increasing Prod.fst
          ((c other.peer).sent.map fun entry => (entry.2.seq, entry.1)) :=
        List.pairwise_map.mpr (h.side other.peer).sends.increasing
      apply hincreasing.sublist_concat (h.matched other)
      · exact List.mem_map.mpr ⟨entry, hentry, by simp [hcarries.seq]⟩
      · intro accepted haccepted
        obtain ⟨earlier, hearlier, rfl⟩ := List.mem_map.mp haccepted
        have := (h.side other).seen earlier hearlier
        show earlier.1.seq < frame.seq
        omega
    · rw [set_of_ne c _ hother]
      by_cases hpeer : other.peer = role
      · have hmatched := h.matched other
        rw [hpeer] at hmatched ⊢
        rw [set_self]
        exact hmatched
      · rw [set_of_ne c _ hpeer]
        exact h.matched other

/-- One step keeps the channel sound. -/
theorem Sound.step (h : c.Sound rt keys compress) {c' : Channel} (hstep : ChannelStep rt keys c c') :
    c'.Sound rt keys compress := by
  cases hstep with
  | push role plaintext => exact h.push role plaintext
  | present role frame unforged =>
      rcases h.open_cases role unforged with
        ⟨entry, hentry, hcarries, hseq, _⟩ | ⟨exn, hopen⟩
      · exact h.accept hentry hcarries hseq
      · have hsame : c.set role ((c role).present rt frame) = c := by
          funext other
          by_cases hother : other = role
          · rw [hother, set_self, Endpoint.present, hopen]
          · rw [set_of_ne c _ hother]
        rw [hsame]
        exact h

/-- Every run keeps the channel sound. -/
theorem sound (h : c.Reachable rt keys compress) : c.Sound rt keys compress := by
  induction h with
  | refl => exact start_sound keys compress
  | tail _ hstep ih => exact ih.step hstep

end Channel

/-- The sealed channel is an exact anti-replay channel. In every run, what a side has returned is a
subsequence, by number and plaintext, of what the other side sealed under strictly increasing numbers;
the side opens a frame whose tag is not forged exactly when it carries a frame the other side sealed
under a number above all accepted ones, and then returns the plaintext sealed under it; and a frame it
rejects leaves its session as it was. -/
theorem sealed_channel_exact (rt : Runtime) (keys : SessionKeys) {compress : Role → Bool} {c : Channel}
    (hreach : c.Reachable rt keys compress) (role : Role) :
    ((c role).accepted.map fun entry => (entry.1.seq, entry.2)).Sublist
        ((c role.peer).sent.map fun entry => (entry.2.seq, entry.1)) ∧
      Increasing (fun entry => entry.2.seq) (c role.peer).sent ∧
      ∀ frame, Unforged rt keys c frame →
        (∀ plaintext, ((c role).session.open rt frame).1 = .ok plaintext ↔
          (∀ entry ∈ (c role).accepted, entry.1.seq < frame.seq) ∧
            ∃ original, (plaintext, original) ∈ (c role.peer).sent ∧ frame.Carries original) ∧
        (∀ exn, ((c role).session.open rt frame).1 = .error exn →
          ((c role).session.open rt frame).2 = (c role).session) := by
  have hsound := Channel.sound hreach
  refine ⟨hsound.matched role, (hsound.side role.peer).sends.increasing, ?_⟩
  intro frame hunforged
  have hcases := hsound.open_cases role hunforged
  constructor
  · intro plaintext
    constructor
    · intro hopen
      rcases hcases with ⟨entry, hentry, hcarries, hseq, heq⟩ | ⟨exn, heq⟩
      · rw [heq] at hopen
        obtain rfl := Except.ok.inj hopen
        have hpos := ((hsound.side role.peer).sends.range entry hentry).1
        rw [← hcarries.seq] at hpos
        exact ⟨((hsound.side role).fresh_iff hpos).mpr hseq, entry.2, hentry, hcarries⟩
      · rw [heq] at hopen
        cases hopen
    · rintro ⟨hfresh, original, hentry, hcarries⟩
      have hpos := ((hsound.side role.peer).sends.range _ hentry).1
      rw [← hcarries.seq] at hpos
      rw [hsound.open_carried hentry hcarries (((hsound.side role).fresh_iff hpos).mp hfresh)]
  · intro exn herror
    rcases hcases with ⟨entry, _, _, _, heq⟩ | ⟨exn', heq⟩
    · rw [heq] at herror
      cases herror
    · rw [heq]

/-! ### A channel with one message -/

/-- Keys of a sample channel. -/
def sampleKeys : SessionKeys where
  clientWrite := [1]
  serverWrite := [2]
  clientMac := [3]
  serverMac := [4]

/-- The input of the tag over the server's first message, `hi`. -/
def sampleTagInput : Bytes := toBytesBE 8 0 ++ toBytesBE 8 1 ++ [0x53, 0x00] ++ asciiBytes "hi"

/-- A runtime that computes the tag of the first message as HMAC-SHA256 does. -/
def channelRuntime : Runtime := sampleRuntime (sampledMac [(sampleKeys.serverMac, sampleTagInput)])

/-- The server's first message. -/
def sampleSealed : SealedFrame where
  epoch := 0
  seq := 1
  direction := "server"
  payload := b64encode (storedMarker :: asciiBytes "hi")
  tag := sign channelRuntime.hmac sampleKeys.serverMac sampleTagInput

theorem collisionFree_channelRuntime : CollisionFree channelRuntime.hmac Set.univ :=
  collisionFree_sampledMac (by decide +kernel) _

/-- The sample channel before anything is sealed. -/
def sampleStart : Channel := .start sampleKeys fun _ => false

/-- The client returns what the server sealed. -/
theorem sealed_channel_exact_sample :
    let c := sampleStart.set .server ((sampleStart .server).push channelRuntime.hmac (asciiBytes "hi"))
    ((c .client).session.open channelRuntime sampleSealed).1 = .ok (asciiBytes "hi") := by
  intro c
  have hreach : c.Reachable channelRuntime sampleKeys fun _ => false :=
    Relation.ReflTransGen.refl.tail (.push .server (asciiBytes "hi"))
  have hsent : (c .server).sent = [(asciiBytes "hi", sampleSealed)] := by
    decide +kernel
  have hmem : (asciiBytes "hi", sampleSealed) ∈ (c .server).sent := by
    rw [hsent]
    exact List.mem_singleton.mpr rfl
  have hunforged : Unforged channelRuntime sampleKeys c sampleSealed :=
    fun _ _ hclaims _ => ⟨.server, _, hmem, hclaims⟩
  obtain ⟨_, _, hexact⟩ := sealed_channel_exact channelRuntime sampleKeys hreach .client
  apply ((hexact sampleSealed hunforged).1 _).mpr
  refine ⟨?_, sampleSealed, hmem, ⟨rfl, rfl, rfl, rfl, _, b64decode_b64encode _, b64decode_b64encode _⟩⟩
  intro entry hentry
  cases hentry

/-- Collision freedom alone does not rule out a frame that nobody sealed: whoever knows the tag of a
message under the server's key has it opened. -/
theorem unsealed_frame_opens :
    CollisionFree channelRuntime.hmac Set.univ ∧ sampleKeys.clientMac ≠ sampleKeys.serverMac ∧
      (sampleStart .client).sent = [] ∧ (sampleStart .server).sent = [] ∧
      ((sampleStart .client).session.open channelRuntime sampleSealed).1 = .ok (asciiBytes "hi") := by
  refine ⟨collisionFree_channelRuntime, by decide, rfl, rfl, ?_⟩
  decide +kernel

end Priestly
