/-
Module: Priestly.Proofs.Relay
Layer: Proofs
Purpose: Relay delivery on a protected node. The server's threads, seen from their broadcasts, are a
  fan-out: that settles who is sent which broadcast and in which order. Next to it, every session seals
  under increasing numbers, so a recipient opens what it is sent in the order of arrival.
Imports: Priestly.Lib.Fanout, Priestly.Cli.Hub, Priestly.Proofs.Channel
Trusted boundary: `json.loads` inverting `json.dumps` is a hypothesis
Main exports: Hub.view, Hub.view_step, Hub.Kept, relay_delivery
-/
import Priestly.Lib.Fanout
import Priestly.Cli.Hub
import Priestly.Proofs.Channel
import Priestly.Python.SampleRuntime

namespace Priestly

open ByteCodec

/-! ### The history of a socket -/

/-- The broadcast a written frame belongs to. -/
def Written.relay? : Written → Option (Nat × Frame)
  | .reply _ => none
  | .relayed number frame => some (number, frame)

/-- The broadcast a thread is in, and the recipients still to be served. -/
def Thread.task : Thread → Option (Nat × List Nat)
  | .broadcasting number todo => some (number, todo)
  | .dropping _ number todo => some (number, todo)
  | _ => none

namespace Hub

open Function

/-- The frames of broadcasts written to a socket, with the numbers of the broadcasts, in the order of the
writes. -/
def relays (s : Hub) (r : Nat) : List (Nat × Frame) := (s.written r).filterMap Written.relay?

/-- The numbers of the broadcasts written to a socket. -/
def tags (s : Hub) (r : Nat) : List Nat := (s.relays r).map Prod.fst

/-- A broadcast still has the recipient to serve. -/
def Pending (s : Hub) (b r : Nat) : Prop := ∃ i todo, (s.thread i).task = some (b, todo) ∧ r ∈ todo

/-- The event keeps the bounds of the message format on a protected node: connections are
authenticated, what is sealed for a compressing session is shorter than the compressor's length field
allows, and counters fit the header. -/
def WithinBounds (rt : Runtime) (s : Hub) : HubEvent → Prop
  | .join _ client => client.session.isSome = true
  | .deliver _ r b => ∀ message session, s.broadcasts[b]? = some message →
      (s.client r).session = some session →
      (session.compress = true →
        (encodeMessage rt message.text message.senderName).length < 2 ^ 32) ∧
      session.txSeq + 1 < 2 ^ 64
  | _ => True

end Hub

/-! ### What happens to a session -/

/-- The loop leaves a session as it is, or moves its receive counter. -/
def SameSealing (session session' : Option SessionState) : Prop :=
  session' = session ∨ ∃ state n, session = some state ∧ session' = some { state with rxSeq := n }

/-- A pass of the message loop does not touch the sealing half of the session. -/
theorem sameSealing_messageLoopBody (rt : Runtime) (client : RegisteredClient) (message : WsMessage) :
    SameSealing client.session (messageLoopBody rt client message).2.session := by
  rw [messageLoopBody]
  cases parseMessage rt message with
  | error exn => exact .inl rfl
  | ok frame =>
      cases frame with
      | «sealed» frame =>
          cases hsession : client.session with
          | none => exact .inl hsession
          | some session =>
              have hstate : ∃ n, (session.open rt frame).2 = { session with rxSeq := n } := by
                rw [SessionState.open]
                cases session.verify rt frame with
                | error exn => exact ⟨session.rxSeq, rfl⟩
                | ok body => exact ⟨frame.seq, rfl⟩
              obtain ⟨n, hn⟩ := hstate
              right
              refine ⟨session, n, rfl, ?_⟩
              simp only
              rw [← hn]
              cases (session.open rt frame).1.bind (decodeMessage rt) with
              | ok handed => rfl
              | error exn =>
                  by_cases hcaught : exn.isBadFrame = true
                  · simp only [hcaught, if_true]
                  · simp only [hcaught]
                    rfl
      | chat text sender =>
          cases hsession : client.session with
          | none => exact .inl hsession
          | some session => exact .inl hsession
      | _ => exact .inl rfl

/-- What `deliver` does on an authenticated connection within the bounds: it seals the message and its
counter moves. -/
theorem RegisteredClient.deliver_ok {rt : Runtime} {client : RegisteredClient} {session : SessionState}
    (hsession : client.session = some session) {text sender : String} {frame : SealedFrame}
    (hframe : (session.seal rt.hmac (encodeMessage rt text sender)).1 = .ok frame) :
    client.deliver rt text sender = (.ok (.sealed frame),
      { client with session := some { session with txSeq := session.txSeq + 1 } }) := by
  have hseal : session.seal rt.hmac (encodeMessage rt text sender) =
      (.ok frame, { session with txSeq := session.txSeq + 1 }) :=
    Prod.ext hframe (SessionState.seal_snd session rt.hmac _)
  simp only [RegisteredClient.deliver, hsession, hseal]
  rfl

/-- Serving an authenticated connection moves the counter of its session. -/
theorem RegisteredClient.deliver_state {rt : Runtime} {client client' : RegisteredClient}
    {session : SessionState} (hsession : client.session = some session) {text sender : String}
    {result : Except Exn Frame} (h : client.deliver rt text sender = (result, client')) :
    client' = { client with session := some { session with txSeq := session.txSeq + 1 } } := by
  simp only [RegisteredClient.deliver, hsession] at h
  exact (Prod.mk.inj h).2.symm

/-- The frame written to an authenticated connection is a sealed one. -/
theorem RegisteredClient.deliver_eq_ok {rt : Runtime} {client client' : RegisteredClient}
    {session : SessionState} (hsession : client.session = some session) {text sender : String}
    {frame : Frame} (h : client.deliver rt text sender = (.ok frame, client')) :
    ∃ sealedFrame, (session.seal rt.hmac (encodeMessage rt text sender)).1 = .ok sealedFrame ∧
      frame = .sealed sealedFrame ∧
      client' = { client with session := some { session with txSeq := session.txSeq + 1 } } := by
  have hstate := RegisteredClient.deliver_state hsession h
  simp only [RegisteredClient.deliver, hsession] at h
  cases hframe : (session.seal rt.hmac (encodeMessage rt text sender)).1 with
  | error exn =>
      rw [hframe] at h
      cases (Prod.mk.inj h).1
  | ok sealedFrame =>
      rw [hframe] at h
      exact ⟨sealedFrame, rfl, (Except.ok.inj (Prod.mk.inj h).1).symm, hstate⟩

namespace Hub

open Function

variable {rt : Runtime} {s s' : Hub}

/-- A relayed frame is the frame sealed for the text and sender of its broadcast. -/
def Matches (rt : Runtime) (broadcasts : List Broadcast) (entry : Nat × Frame)
    (sealedPair : Bytes × SealedFrame) : Prop :=
  entry.2 = .sealed sealedPair.2 ∧ ∃ message, broadcasts[entry.1]? = some message ∧
    sealedPair.1 = encodeMessage rt message.text message.senderName

/-- The session of a connection has sealed what was relayed to it, under increasing numbers; frames it
sealed and could not write are left out. -/
def Sealing (rt : Runtime) (s : Hub) (r : Nat) : Prop :=
  ∃ base session sent, (s.client r).session = some session ∧ base.epoch = 0 ∧
    Endpoint.Sends rt base ⟨session, sent, []⟩ ∧
    List.Forall₂ (Matches rt s.broadcasts) (s.relays r) sent

/-- What holds of the server at any time. -/
structure Kept (rt : Runtime) (s : Hub) : Prop where
  nodup : s.registry.Nodup
  present : ∀ i ∈ s.registry, s.thread i ≠ .absent
  audience : ∀ i b todo, (s.thread i).task = some (b, todo) → ∀ r ∈ todo, s.thread r ≠ .absent
  silent : ∀ i, s.thread i = .absent → s.relays i = []
  sealing : ∀ r, s.thread r ≠ .absent → s.Sealing rt r

theorem Matches.append {broadcasts : List Broadcast} {entry : Nat × Frame}
    {sealedPair : Bytes × SealedFrame} (h : Matches rt broadcasts entry sealedPair)
    (more : List Broadcast) : Matches rt (broadcasts ++ more) entry sealedPair := by
  obtain ⟨hframe, message, hlog, hplaintext⟩ := h
  exact ⟨hframe, message, Fanout.getElem?_append_of_some hlog more, hplaintext⟩

/-- The session of a connection was registered as `base` and has sealed what was relayed to it since. -/
def SealsFrom (rt : Runtime) (s : Hub) (r : Nat) (base : SessionState) : Prop :=
  ∃ session sent, (s.client r).session = some session ∧ Endpoint.Sends rt base ⟨session, sent, []⟩ ∧
    List.Forall₂ (Matches rt s.broadcasts) (s.relays r) sent

theorem sealing_iff {r : Nat} :
    s.Sealing rt r ↔ ∃ base, base.epoch = 0 ∧ s.SealsFrom rt r base := by
  constructor
  · rintro ⟨base, session, sent, hclient, hepoch, hrest⟩
    exact ⟨base, hepoch, session, sent, hclient, hrest⟩
  · rintro ⟨base, hepoch, session, sent, hclient, hrest⟩
    exact ⟨base, session, sent, hclient, hepoch, hrest⟩

/-- A receive counter that moves and a broadcast that is logged do not disturb what was sealed. -/
theorem SealsFrom.same {r : Nat} {base : SessionState} (h : s.SealsFrom rt r base)
    (hsession : SameSealing (s.client r).session (s'.client r).session)
    (hrelays : s'.relays r = s.relays r) (hlog : ∃ more, s'.broadcasts = s.broadcasts ++ more) :
    s'.SealsFrom rt r base := by
  obtain ⟨session, sent, hclient, hsends, hmatch⟩ := h
  obtain ⟨more, hmore⟩ := hlog
  have hmatch' : List.Forall₂ (Matches rt s'.broadcasts) (s'.relays r) sent := by
    rw [hmore, hrelays]
    exact hmatch.imp fun _ _ hm => hm.append more
  rcases hsession with hsame | ⟨state, n, hstate, hmoved⟩
  · exact ⟨session, sent, hsame.trans hclient, hsends, hmatch'⟩
  · obtain rfl := Option.some.inj (hclient.symm.trans hstate)
    exact ⟨_, sent, hmoved, hsends.receive n [], hmatch'⟩

theorem Sealing.same {r : Nat} (h : s.Sealing rt r)
    (hsession : SameSealing (s.client r).session (s'.client r).session)
    (hrelays : s'.relays r = s.relays r) (hlog : ∃ more, s'.broadcasts = s.broadcasts ++ more) :
    s'.Sealing rt r := by
  obtain ⟨base, hepoch, hfrom⟩ := sealing_iff.mp h
  exact sealing_iff.mpr ⟨base, hepoch, hfrom.same hsession hrelays hlog⟩

/-- Steps that neither register a connection nor deliver a message keep the server's properties, provided
the registry does not grow and the recipients still to be served are connected. -/
theorem Kept.frame (h : s.Kept rt) (hregistry : s'.registry.Sublist s.registry)
    (habsent : ∀ i, s'.thread i = .absent ↔ s.thread i = .absent)
    (haudience : ∀ i b todo, (s'.thread i).task = some (b, todo) → ∀ r ∈ todo, s.thread r ≠ .absent)
    (hrelays : ∀ i, s'.relays i = s.relays i)
    (hclient : ∀ i, SameSealing (s.client i).session (s'.client i).session)
    (hlog : ∃ more, s'.broadcasts = s.broadcasts ++ more) : s'.Kept rt := by
  constructor
  · exact h.nodup.sublist hregistry
  · intro i hi
    rw [Ne, habsent i]
    exact h.present i (hregistry.subset hi)
  · intro i b todo hbusy r hr
    rw [Ne, habsent r]
    exact haudience i b todo hbusy r hr
  · intro i hi
    rw [hrelays i]
    exact h.silent i ((habsent i).mp hi)
  · intro r hr
    rw [Ne, habsent r] at hr
    exact (h.sealing r hr).same (hclient r) (hrelays r) hlog

/-! ### One step of the server -/

/-- A thread that moves stays connected. -/
theorem absent_update {i : Nat} {thread : Thread} (hi : s.thread i ≠ .absent) (ht : thread ≠ .absent)
    (j : Nat) : update s.thread i thread j = .absent ↔ s.thread j = .absent := by
  by_cases hj : j = i
  · rw [hj, update_self]
    exact ⟨fun h => absurd h ht, fun h => absurd h hi⟩
  · rw [update_of_ne hj]

/-- A thread that moves has only connected clients to serve when it had none but these before. -/
theorem Kept.audience_update (h : s.Kept rt) {i : Nat} {thread : Thread}
    (ht : ∀ b todo, thread.task = some (b, todo) → ∀ r ∈ todo, s.thread r ≠ .absent) :
    ∀ j b todo, (update s.thread i thread j).task = some (b, todo) →
      ∀ r ∈ todo, s.thread r ≠ .absent := by
  intro j b todo hbusy
  by_cases hj : j = i
  · rw [hj, update_self] at hbusy
    exact ht b todo hbusy
  · rw [update_of_ne hj] at hbusy
    exact h.audience j b todo hbusy

theorem sameSealing_update {i : Nat} {client : RegisteredClient}
    (h : SameSealing (s.client i).session client.session) (j : Nat) :
    SameSealing (s.client j).session (update s.client i client j).session := by
  by_cases hj : j = i
  · rw [hj, update_self]
    exact h
  · rw [update_of_ne hj]
    exact .inl rfl

/-- A pass of the message loop, as it leaves the client. -/
theorem sameSealing_body {i : Nat} {message : WsMessage} {result : Except Exn LoopAction}
    {client : RegisteredClient} (body : messageLoopBody rt (s.client i) message = (result, client))
    (j : Nat) : SameSealing (s.client j).session (update s.client i client j).session := by
  apply sameSealing_update
  have hsame := sameSealing_messageLoopBody rt (s.client i) message
  rw [body] at hsame
  exact hsame

/-- Replies are no relayed frames. -/
theorem filterMap_update_reply (written : Nat → List Written) (i : Nat) (frame : Frame) (j : Nat) :
    (update written i (written i ++ [.reply frame]) j).filterMap Written.relay? =
      (written j).filterMap Written.relay? := by
  by_cases hj : j = i
  · rw [hj, update_self, List.filterMap_append]
    exact List.append_nil _
  · rw [update_of_ne hj]

/-- A relayed frame is the last one of its recipient. -/
theorem filterMap_update_relayed (written : Nat → List Written) (r b : Nat) (frame : Frame) :
    (update written r (written r ++ [.relayed b frame]) r).filterMap Written.relay? =
      (written r).filterMap Written.relay? ++ [(b, frame)] := by
  rw [update_self, List.filterMap_append]
  rfl

/-- A connection is registered. -/
theorem Kept.join (h : s.Kept rt) {i : Nat} {client : RegisteredClient} (free : s.thread i = .absent)
    (fresh : client.session = none ∨
      ∃ keys compress, client.session = some (.new keys false compress))
    (hsession : client.session.isSome = true) :
    Kept rt { s with
      client := update s.client i client
      thread := update s.thread i .looping
      registry := s.registry ++ [i] } := by
  have habsent : ∀ j, s.thread j ≠ .absent → j ≠ i := by
    rintro j hj rfl
    exact hj free
  have hnew : ∀ j, s.thread j ≠ .absent ∨ j = i → update s.thread i .looping j ≠ .absent := by
    intro j hj
    by_cases hji : j = i
    · rw [hji, update_self]
      exact nofun
    · rw [update_of_ne hji]
      exact hj.resolve_right hji
  constructor
  · apply List.nodup_append.mpr
    refine ⟨h.nodup, List.nodup_singleton i, ?_⟩
    intro j hj k hk
    rw [List.mem_singleton.mp hk]
    exact habsent j (h.present j hj)
  · intro j hj
    apply hnew
    rcases List.mem_append.mp hj with hold | hsingle
    · exact .inl (h.present j hold)
    · exact .inr (List.mem_singleton.mp hsingle)
  · intro j b todo hbusy r hr
    apply hnew
    left
    have hlooping : ∀ b todo, Thread.looping.task = some (b, todo) →
        ∀ r ∈ todo, s.thread r ≠ .absent := by
      intro b todo hnone
      cases hnone
    exact h.audience_update hlooping j b todo hbusy r hr
  · intro j hj
    by_cases hji : j = i
    · rw [hji]
      exact h.silent i free
    · apply h.silent j
      simp only [update_of_ne hji] at hj
      exact hj
  · intro r hr
    by_cases hri : r = i
    · subst hri
      rcases fresh with hnone | ⟨keys, compress, hsome⟩
      · rw [hnone] at hsession
        cases hsession
      · refine ⟨_, _, [], ?_, rfl, Endpoint.sends_start keys false compress, ?_⟩
        · simp only [update_self]
          exact hsome
        · have hsilent : s.relays r = [] := h.silent r free
          show List.Forall₂ _ (s.relays r) []
          rw [hsilent]
          exact .nil
    · simp only [update_of_ne hri] at hr
      apply (h.sealing r hr).same
      · simp only [update_of_ne hri]
        exact .inl rfl
      · rfl
      · exact ⟨[], (List.append_nil _).symm⟩

/-- Within the bounds the message of a broadcast can be sealed for every recipient. -/
theorem Kept.seal_ok (h : s.Kept rt) {i r b : Nat} (hr : s.thread r ≠ .absent) {message : Broadcast}
    (log : s.broadcasts[b]? = some message) (hbounds : s.WithinBounds rt (.deliver i r b)) :
    ∃ session frame, (s.client r).session = some session ∧
      (session.seal rt.hmac (encodeMessage rt message.text message.senderName)).1 = .ok frame := by
  obtain ⟨base, session, sent, hsession, hepoch, hsends, _⟩ := h.sealing r hr
  obtain ⟨hshort, hroom⟩ := hbounds message session log hsession
  have hzero : session.epoch = 0 := by
    have hsame : session = { base with txSeq := session.txSeq, rxSeq := session.rxSeq } :=
      hsends.session
    rw [hsame]
    exact hepoch
  have hcounter : 0 ≤ session.txSeq := hsends.counter
  obtain ⟨frame, hframe⟩ : ∃ frame,
      (session.seal rt.hmac (encodeMessage rt message.text message.senderName)).1 = .ok frame := by
    apply SessionState.seal_ok_iff.mpr
    refine ⟨hshort, ?_, ?_⟩
    · omega
    · omega
  exact ⟨session, frame, hsession, hframe⟩

/-- A recipient is sent the frame of a broadcast. -/
theorem SealsFrom.deliver {r b : Nat} {base : SessionState} (h : s.SealsFrom rt r base)
    {message : Broadcast} (log : s.broadcasts[b]? = some message) {session : SessionState}
    {frame : SealedFrame} (hsession : (s.client r).session = some session)
    (hframe : (session.seal rt.hmac (encodeMessage rt message.text message.senderName)).1 = .ok frame)
    (hclient : (s'.client r).session = some { session with txSeq := session.txSeq + 1 })
    (hrelays : s'.relays r = s.relays r ++ [(b, .sealed frame)])
    (hlog : s'.broadcasts = s.broadcasts) : s'.SealsFrom rt r base := by
  obtain ⟨state, sent, hstate, hsends, hmatch⟩ := h
  obtain rfl := Option.some.inj (hsession.symm.trans hstate)
  refine ⟨_, _, hclient, hsends.record hframe, ?_⟩
  rw [hrelays, hlog]
  apply List.rel_append hmatch
  exact .cons ⟨rfl, message, log, rfl⟩ .nil

/-- A recipient is not sent the frame that was sealed for it. -/
theorem SealsFrom.advance {r : Nat} {base : SessionState} (h : s.SealsFrom rt r base)
    {session : SessionState} (hsession : (s.client r).session = some session)
    (hclient : (s'.client r).session = some { session with txSeq := session.txSeq + 1 })
    (hrelays : s'.relays r = s.relays r) (hlog : s'.broadcasts = s.broadcasts) :
    s'.SealsFrom rt r base := by
  obtain ⟨state, sent, hstate, hsends, hmatch⟩ := h
  obtain rfl := Option.some.inj (hsession.symm.trans hstate)
  refine ⟨_, sent, hclient, hsends.advance, ?_⟩
  rw [hrelays, hlog]
  exact hmatch

theorem Sealing.deliver {r b : Nat} (h : s.Sealing rt r) {message : Broadcast}
    (log : s.broadcasts[b]? = some message) {session : SessionState} {frame : SealedFrame}
    (hsession : (s.client r).session = some session)
    (hframe : (session.seal rt.hmac (encodeMessage rt message.text message.senderName)).1 = .ok frame)
    (hclient : (s'.client r).session = some { session with txSeq := session.txSeq + 1 })
    (hrelays : s'.relays r = s.relays r ++ [(b, .sealed frame)])
    (hlog : s'.broadcasts = s.broadcasts) : s'.Sealing rt r := by
  obtain ⟨base, hepoch, hfrom⟩ := sealing_iff.mp h
  exact sealing_iff.mpr
    ⟨base, hepoch, hfrom.deliver log hsession hframe hclient hrelays hlog⟩

theorem Sealing.advance {r : Nat} (h : s.Sealing rt r) {session : SessionState}
    (hsession : (s.client r).session = some session)
    (hclient : (s'.client r).session = some { session with txSeq := session.txSeq + 1 })
    (hrelays : s'.relays r = s.relays r) (hlog : s'.broadcasts = s.broadcasts) :
    s'.Sealing rt r := by
  obtain ⟨base, hepoch, hfrom⟩ := sealing_iff.mp h
  exact sealing_iff.mpr ⟨base, hepoch, hfrom.advance hsession hclient hrelays hlog⟩

/-- Serving a recipient, with or without success, concerns only its session and its socket. -/
theorem Kept.served (h : s.Kept rt) {i r : Nat} {thread : Thread} (hi : s.thread i ≠ .absent)
    (hr : s.thread r ≠ .absent) (ht : thread ≠ .absent)
    (haudience : ∀ b todo, thread.task = some (b, todo) → ∀ r ∈ todo, s.thread r ≠ .absent)
    (hthread : s'.thread = update s.thread i thread) (hregistry : s'.registry = s.registry)
    (hclient : ∀ j, j ≠ r → s'.client j = s.client j)
    (hrelays : ∀ j, j ≠ r → s'.relays j = s.relays j) (hlog : s'.broadcasts = s.broadcasts)
    (hsealing : s'.Sealing rt r) : s'.Kept rt := by
  have habsent : ∀ j, s'.thread j = .absent ↔ s.thread j = .absent := by
    intro j
    rw [hthread]
    exact absent_update hi ht j
  constructor
  · rw [hregistry]
    exact h.nodup
  · intro j hj
    rw [Ne, habsent j]
    exact h.present j (hregistry ▸ hj)
  · intro j b todo hbusy r' hr'
    rw [Ne, habsent r']
    rw [hthread] at hbusy
    exact h.audience_update haudience j b todo hbusy r' hr'
  · intro j hj
    have hj' := (habsent j).mp hj
    have hjr : j ≠ r := by
      rintro rfl
      exact hr hj'
    rw [hrelays j hjr]
    exact h.silent j hj'
  · intro j hj
    by_cases hjr : j = r
    · rw [hjr]
      exact hsealing
    · rw [Ne, habsent j] at hj
      apply (h.sealing j hj).same
      · rw [hclient j hjr]
        exact .inl rfl
      · exact hrelays j hjr
      · exact ⟨[], hlog.trans (List.append_nil _).symm⟩

/-- Every step within the bounds keeps the server's properties. -/
theorem Kept.step (h : s.Kept rt) {event : HubEvent} (hbounds : s.WithinBounds rt event)
    (hstep : HubStep rt event s s') : s'.Kept rt := by
  have hidle : ∀ thread : Thread, thread.task = none →
      ∀ b todo, thread.task = some (b, todo) → ∀ r ∈ todo, s.thread r ≠ .absent := by
    intro thread hnone b todo hsome
    rw [hnone] at hsome
    cases hsome
  have hsame : ∀ i, SameSealing (s.client i).session (s.client i).session := fun _ => .inl rfl
  have hlog : ∃ more, s.broadcasts = s.broadcasts ++ more := ⟨[], (List.append_nil _).symm⟩
  have hwhole : s.registry.Sublist s.registry := List.Sublist.refl _
  cases hstep with
  | join free fresh => exact h.join free fresh hbounds
  | reply looping body healthy =>
      refine h.frame hwhole (fun _ => Iff.rfl) h.audience ?_ (sameSealing_body body) hlog
      exact fun j => filterMap_update_reply s.written _ _ j
  | replyFails looping body failed =>
      exact h.frame hwhole (absent_update (looping ▸ nofun) nofun)
        (h.audience_update (hidle _ rfl)) (fun _ => rfl) (sameSealing_body body) hlog
  | crash looping body =>
      exact h.frame hwhole (absent_update (looping ▸ nofun) nofun)
        (h.audience_update (hidle _ rfl)) (fun _ => rfl) (sameSealing_body body) hlog
  | broadcast looping body snapshot =>
      refine h.frame hwhole (absent_update (looping ▸ nofun) nofun) ?_ (fun _ => rfl)
        (sameSealing_body body) ⟨_, rfl⟩
      apply h.audience_update
      intro b rest hbusy r hr
      obtain ⟨_, rfl⟩ := Prod.mk.inj (Option.some.inj hbusy)
      exact h.present r (List.mem_filter.mp (snapshot.mem_iff.mp hr)).1
  | receiveFails looping =>
      exact h.frame hwhole (absent_update (looping ▸ nofun) nofun)
        (h.audience_update (hidle _ rfl)) (fun _ => rfl) hsame hlog
  | @deliver _ i r b todo message frame client busy log frames healthy =>
      have htask : (s.thread i).task = some (b, r :: todo) := by
        rw [busy]
        rfl
      have hr := h.audience i b (r :: todo) htask r List.mem_cons_self
      obtain ⟨session, sealedFrame, hsession, hframe⟩ := h.seal_ok hr log hbounds
      rw [RegisteredClient.deliver_ok hsession hframe] at frames
      obtain ⟨hframes, rfl⟩ := Prod.mk.inj frames
      obtain rfl := Except.ok.inj hframes
      have hi : s.thread i ≠ .absent := by
        rw [busy]
        exact nofun
      refine h.served hi hr ?_ ?_ rfl rfl ?_ ?_ rfl ?_
      · exact nofun
      · intro b' rest hrest r' hr'
        obtain ⟨_, rfl⟩ := Prod.mk.inj (Option.some.inj hrest)
        exact h.audience i b (r :: todo) htask r' (List.mem_cons_of_mem r hr')
      · intro j hj
        exact update_of_ne hj _ _
      · intro j hj
        simp only [relays, update_of_ne hj]
      · refine (h.sealing r hr).deliver log hsession hframe ?_ ?_ rfl
        · simp only [update_self]
        · exact filterMap_update_relayed s.written r b _
  | @deliverFails _ i r b todo message result client busy log frames failed =>
      have htask : (s.thread i).task = some (b, r :: todo) := by
        rw [busy]
        rfl
      have hr := h.audience i b (r :: todo) htask r List.mem_cons_self
      obtain ⟨session, sealedFrame, hsession, hframe⟩ := h.seal_ok hr log hbounds
      rw [RegisteredClient.deliver_ok hsession hframe] at frames
      obtain ⟨_, rfl⟩ := Prod.mk.inj frames
      have hi : s.thread i ≠ .absent := by
        rw [busy]
        exact nofun
      refine h.served hi hr ?_ ?_ rfl rfl ?_ (fun _ _ => rfl) rfl ?_
      · exact nofun
      · intro b' rest hrest r' hr'
        obtain ⟨_, rfl⟩ := Prod.mk.inj (Option.some.inj hrest)
        exact h.audience i b (r :: todo) htask r' (List.mem_cons_of_mem r hr')
      · intro j hj
        exact update_of_ne hj _ _
      · refine (h.sealing r hr).advance hsession ?_ rfl rfl
        simp only [update_self]
  | @drop _ i r b todo busy =>
      refine h.frame List.erase_sublist (absent_update (busy ▸ nofun) nofun) ?_ (fun _ => rfl) hsame hlog
      apply h.audience_update
      intro b' rest hrest
      obtain ⟨rfl, rfl⟩ := Prod.mk.inj (Option.some.inj hrest)
      apply h.audience i b todo
      rw [busy]
      rfl
  | finish busy =>
      exact h.frame hwhole (absent_update (busy ▸ nofun) nofun)
        (h.audience_update (hidle _ rfl)) (fun _ => rfl) hsame hlog
  | leave going =>
      exact h.frame List.erase_sublist (absent_update (going ▸ nofun) nofun)
        (h.audience_update (hidle _ rfl)) (fun _ => rfl) hsame hlog
  | breaks => exact h.frame hwhole (fun _ => Iff.rfl) h.audience (fun _ => rfl) hsame hlog

/-- Whatever the threads do, a registered session goes on sealing what is relayed to its connection. -/
theorem SealsFrom.step {r : Nat} {base : SessionState} (h : s.SealsFrom rt r base) {event : HubEvent}
    (within : ∀ client, event ≠ .join r client) (hstep : HubStep rt event s s') :
    s'.SealsFrom rt r base := by
  have hsame : SameSealing (s.client r).session (s.client r).session := .inl rfl
  have hlog : ∃ more, s.broadcasts = s.broadcasts ++ more := ⟨[], (List.append_nil _).symm⟩
  cases hstep with
  | @join _ i client free fresh =>
      have hr : r ≠ i := by
        rintro rfl
        exact within client rfl
      refine h.same ?_ rfl hlog
      simp only [update_of_ne hr]
      exact hsame
  | reply looping body healthy =>
      exact h.same (sameSealing_body body r) (filterMap_update_reply s.written _ _ r) hlog
  | replyFails looping body failed => exact h.same (sameSealing_body body r) rfl hlog
  | crash looping body => exact h.same (sameSealing_body body r) rfl hlog
  | broadcast looping body snapshot => exact h.same (sameSealing_body body r) rfl ⟨_, rfl⟩
  | receiveFails looping => exact h.same hsame rfl hlog
  | @deliver _ i k b todo message frame client busy log frames healthy =>
      by_cases hk : r = k
      · subst hk
        obtain ⟨session, sent, hsession, hrest⟩ := h
        obtain ⟨sealedFrame, hframe, rfl, rfl⟩ := RegisteredClient.deliver_eq_ok hsession frames
        have hfrom : s.SealsFrom rt r base := ⟨session, sent, hsession, hrest⟩
        refine hfrom.deliver log hsession hframe ?_ ?_ rfl
        · simp only [update_self]
        · exact filterMap_update_relayed s.written r b _
      · refine h.same ?_ ?_ hlog
        · simp only [update_of_ne hk]
          exact hsame
        · simp only [relays, update_of_ne hk]
  | @deliverFails _ i k b todo message result client busy log frames failed =>
      by_cases hk : r = k
      · subst hk
        obtain ⟨session, sent, hsession, hrest⟩ := h
        have hfrom : s.SealsFrom rt r base := ⟨session, sent, hsession, hrest⟩
        refine hfrom.advance hsession ?_ rfl rfl
        simp only [update_self]
        rw [RegisteredClient.deliver_state hsession frames]
      · refine h.same ?_ rfl hlog
        simp only [update_of_ne hk]
        exact hsame
  | drop busy => exact h.same hsame rfl hlog
  | finish busy => exact h.same hsame rfl hlog
  | leave going => exact h.same hsame rfl hlog
  | breaks => exact h.same hsame rfl hlog

/-- Every run within the bounds keeps the server's properties. -/
theorem Run.kept (h : Run rt (WithinBounds rt) s) : s.Kept rt := by
  induction h with
  | start =>
      constructor
      · exact List.nodup_nil
      · intro i hi
        cases hi
      · intro i b todo hbusy
        cases hbusy
      · intro i _
        rfl
      · intro r hr
        exact absurd rfl hr
  | step _ hbounds hstep ih => exact ih.step hbounds hstep

/-! ### The server as a fan-out -/

/-- A broadcast as a call: its audience are the registered clients other than the sender. -/
def callOf (message : Broadcast) : Fanout.Call Nat :=
  { sender := message.sender, audience := message.registered.filter (· ≠ message.sender) }

/-- The broadcasts of the server. -/
def view (s : Hub) : Fanout.State Nat where
  task i := (s.thread i).task
  log := s.tags
  failed := s.broken
  calls := s.broadcasts.map callOf

/-- The task of a thread when one thread moves. -/
theorem task_update (s : Hub) (i : Nat) (thread : Thread) (j : Nat) :
    (update s.thread i thread j).task = update s.view.task i thread.task j := by
  by_cases hj : j = i
  · rw [hj, update_self, update_self]
  · rw [update_of_ne hj, update_of_ne hj]
    rfl

/-- A thread that moves outside a broadcast, or within one without serving anybody. -/
theorem view_same {i : Nat} {thread : Thread} (htask : thread.task = (s.thread i).task)
    (hthread : s'.thread = update s.thread i thread) (htags : s'.tags = s.tags)
    (hbroken : s'.broken = s.broken) (hlog : s'.broadcasts = s.broadcasts) : s'.view = s.view := by
  have htasks : (fun j => (s'.thread j).task) = fun j => (s.thread j).task := by
    funext j
    rw [hthread, task_update, htask]
    exact congrFun (update_eq_self i s.view.task) j
  simp only [view, htasks, htags, hbroken, hlog]

/-- A hub whose view agrees with the outcome of a step of the fan-out has made that step. -/
theorem step_of_view {v : Fanout.State Nat} (hstep : Fanout.Step s.view v)
    (htask : ∀ j, (s'.thread j).task = v.task j) (hlog : ∀ j, s'.tags j = v.log j)
    (hfailed : s'.broken = v.failed) (hcalls : s'.broadcasts.map callOf = v.calls) :
    Fanout.Step s.view s'.view := by
  have hview : s'.view = v := by
    cases v
    simp only [view, Fanout.State.mk.injEq]
    exact ⟨funext htask, funext hlog, hfailed, hcalls⟩
  rw [hview]
  exact hstep

/-- Within the bounds a delivery fails only on a broken socket. -/
theorem Kept.broken_of_failed (h : s.Kept rt) {i r b : Nat} {todo : List Nat} {message : Broadcast}
    {result : Except Exn Frame} {client : RegisteredClient}
    (busy : s.thread i = .broadcasting b (r :: todo)) (log : s.broadcasts[b]? = some message)
    (frames : (s.client r).deliver rt message.text message.senderName = (result, client))
    (failed : (∃ exn, result = .error exn) ∨ s.broken r = true)
    (hbounds : s.WithinBounds rt (.deliver i r b)) : s.broken r = true := by
  rcases failed with ⟨exn, rfl⟩ | hbroken
  · have htask : (s.thread i).task = some (b, r :: todo) := by
      rw [busy]
      rfl
    have hr := h.audience i b (r :: todo) htask r List.mem_cons_self
    obtain ⟨session, sealedFrame, hsession, hframe⟩ := h.seal_ok hr log hbounds
    rw [RegisteredClient.deliver_ok hsession hframe] at frames
    cases (Prod.mk.inj frames).1
  · exact hbroken

/-- Every step within the bounds is a step of the fan-out, or none. -/
theorem view_step (h : s.Kept rt) {event : HubEvent} (hbounds : s.WithinBounds rt event)
    (hstep : HubStep rt event s s') : s'.view = s.view ∨ Fanout.Step s.view s'.view := by
  cases hstep with
  | join free fresh =>
      left
      refine view_same ?_ rfl rfl rfl rfl
      rw [free]
      rfl
  | @reply _ i message frame client looping body healthy =>
      left
      refine view_same rfl (update_eq_self i s.thread).symm ?_ rfl rfl
      funext j
      exact congrArg (List.map Prod.fst) (filterMap_update_reply s.written i frame j)
  | replyFails looping body failed =>
      left
      refine view_same ?_ rfl rfl rfl rfl
      rw [looping]
      rfl
  | crash looping body =>
      left
      refine view_same ?_ rfl rfl rfl rfl
      rw [looping]
      rfl
  | @broadcast _ i message text senderName client todo looping body snapshot =>
      right
      have hidle : s.view.task i = none := by
        show (s.thread i).task = none
        rw [looping]
        rfl
      have hself : i ∉ s.registry.filter (· ≠ i) := by
        intro hmem
        simpa using (List.mem_filter.mp hmem).2
      have hlength : s.view.calls.length = s.broadcasts.length := List.length_map _
      refine step_of_view (Fanout.Step.call hidle (h.nodup.filter _) hself snapshot) ?_ (fun _ => rfl)
        rfl ?_
      · intro j
        rw [hlength]
        exact task_update s i (.broadcasting s.broadcasts.length todo) j
      · exact List.map_append
  | receiveFails looping =>
      left
      refine view_same ?_ rfl rfl rfl rfl
      rw [looping]
      rfl
  | @deliver _ i r b todo message frame client busy log frames healthy =>
      right
      have hbusy : s.view.task i = some (b, r :: todo) := by
        show (s.thread i).task = _
        rw [busy]
        rfl
      refine step_of_view (Fanout.Step.serve hbusy) ?_ ?_ rfl rfl
      · exact task_update s i (.broadcasting b todo)
      · intro j
        show ((update s.written r (s.written r ++ [.relayed b frame]) j).filterMap
          Written.relay?).map Prod.fst = update s.tags r (s.tags r ++ [b]) j
        by_cases hj : j = r
        · rw [hj, filterMap_update_relayed, update_self, List.map_append]
          rfl
        · rw [update_of_ne hj, update_of_ne hj]
          rfl
  | @deliverFails _ i r b todo message result client busy log frames failed =>
      right
      have hbusy : s.view.task i = some (b, r :: todo) := by
        show (s.thread i).task = _
        rw [busy]
        rfl
      have hbroken := h.broken_of_failed busy log frames failed hbounds
      exact step_of_view (Fanout.Step.skip hbusy hbroken) (task_update s i (.dropping r b todo))
        (fun _ => rfl) rfl rfl
  | drop busy =>
      left
      refine view_same ?_ rfl rfl rfl rfl
      rw [busy]
      rfl
  | @finish _ i b busy =>
      right
      have hbusy : s.view.task i = some (b, []) := by
        show (s.thread i).task = _
        rw [busy]
        rfl
      exact step_of_view (Fanout.Step.finish hbusy) (task_update s i .looping) (fun _ => rfl) rfl rfl
  | leave going =>
      left
      refine view_same ?_ rfl rfl rfl rfl
      rw [going]
      rfl
  | breaks => exact .inr .fail

/-- Every run within the bounds is a run of the fan-out. -/
theorem Run.view_reachable (h : Run rt (WithinBounds rt) s) :
    Relation.ReflTransGen Fanout.Step Fanout.State.start s.view := by
  induction h with
  | start => exact .refl
  | step hrun hbounds hstep ih =>
      rcases view_step hrun.kept hbounds hstep with hsame | hmoved
      · rw [hsame]
        exact ih
      · exact ih.tail hmoved

end Hub

/-! ### What a recipient receives -/

/-- What a recipient makes of the frames it is sent, in the order of arrival: it opens the sealed ones
and decodes what it gets. -/
def receiveAll (rt : Runtime) : SessionState → List Frame → List (Except Exn (String × String))
  | _, [] => []
  | session, .sealed frame :: frames =>
      ((session.open rt frame).1 >>= decodeMessage rt) ::
        receiveAll rt (session.open rt frame).2 frames
  | session, _ :: frames => receiveAll rt session frames

/-- The result is the text and sender of the broadcast with that number. -/
def Yields (broadcasts : List Broadcast) (entry : Nat × Frame)
    (result : Except Exn (String × String)) : Prop :=
  ∃ message, broadcasts[entry.1]? = some message ∧ result = .ok (message.text, message.senderName)

/-- A sealed frame carries itself. -/
theorem SessionState.Seals.carries_self {sender : SessionState} {mac : Mac} {plaintext : Bytes}
    {frame : SealedFrame} (h : sender.Seals mac plaintext frame) : frame.Carries frame := by
  obtain ⟨body, message, _, _, hframe⟩ := h.parts
  have hdecode : b64decode frame.payload = .ok body := by
    rw [hframe]
    exact b64decode_b64encode body
  exact ⟨rfl, rfl, rfl, rfl, body, hdecode, hdecode⟩

/-- Frames sealed for broadcasts under increasing numbers are opened in their order, each to its
broadcast. -/
theorem receiveAll_matches {rt : Runtime} (hjson : JsonRoundTrip rt) {base recipient : SessionState}
    {broadcasts : List Broadcast} {entries : List (Nat × Frame)} {sent : List (Bytes × SealedFrame)}
    (hmatch : List.Forall₂ (Hub.Matches rt broadcasts) entries sent)
    (hseals : ∀ entry ∈ sent, base.Seals rt.hmac entry.1 entry.2)
    (hincreasing : Increasing (fun entry => entry.2.seq) sent)
    (habove : ∀ entry ∈ sent, recipient.rxSeq < entry.2.seq)
    (hdir : recipient.rxDir = base.txDir) (hkey : recipient.rxMac = base.txMac) :
    List.Forall₂ (Yields broadcasts) entries (receiveAll rt recipient (entries.map Prod.snd)) := by
  induction hmatch generalizing recipient with
  | nil => exact .nil
  | @cons entry sealedPair entries sent hentry _ ih =>
      obtain ⟨hframe, message, hlog, hplaintext⟩ := hentry
      have hsealed := hseals sealedPair List.mem_cons_self
      obtain ⟨body, hverify, hunpack⟩ := hsealed.verify hsealed.carries_self hdir hkey
        (habove sealedPair List.mem_cons_self)
      obtain ⟨hhead, htail⟩ := List.pairwise_cons.mp hincreasing
      rw [List.map_cons, hframe, receiveAll, SessionState.open_of_verify_ok hverify, hunpack]
      constructor
      · refine ⟨message, hlog, ?_⟩
        rw [hplaintext]
        exact decodeMessage_encodeMessage hjson message.text message.senderName
      · exact ih (fun other hother => hseals other (List.mem_cons_of_mem _ hother)) htail hhead hdir hkey

/-- All that is relayed is sealed. -/
theorem frames_of_matches {rt : Runtime} {broadcasts : List Broadcast} {entries : List (Nat × Frame)}
    {sent : List (Bytes × SealedFrame)}
    (hmatch : List.Forall₂ (Hub.Matches rt broadcasts) entries sent) :
    entries.map Prod.snd = (sent.map Prod.snd).map Frame.sealed := by
  induction hmatch with
  | nil => rfl
  | cons hentry _ ih =>
      rw [List.map_cons, List.map_cons, List.map_cons, ih, hentry.1]

/-- Relay delivery on a protected node. In every run within the bounds: a broadcast is sent to nobody
but the clients in the registry at its snapshot other than its sender, at most once to each, and exactly
once to each whose socket has not failed, unless the broadcast still has to serve it; the broadcasts of
one sender reach each recipient in the order of the messages; and the frames a recipient is sent are
sealed frames with strictly increasing numbers, which its own session opens in the order of arrival, each
to the text and sender of its broadcast. -/
theorem relay_delivery (rt : Runtime) (hjson : JsonRoundTrip rt) {s : Hub}
    (hrun : Hub.Run rt (Hub.WithinBounds rt) s) :
    (∀ (b : Nat) (message : Broadcast), s.broadcasts[b]? = some message → ∀ r,
      (b ∈ s.tags r → r ∈ message.registered ∧ r ≠ message.sender) ∧
      (s.tags r).count b ≤ 1 ∧
      (r ∈ message.registered → r ≠ message.sender → s.broken r = false → ¬ s.Pending b r →
        (s.tags r).count b = 1)) ∧
    (∀ r, (s.tags r).Pairwise fun b b' => ∀ message message' : Broadcast,
      s.broadcasts[b]? = some message → s.broadcasts[b']? = some message' →
      message.sender = message'.sender → b < b') ∧
    ∀ r, s.thread r ≠ .absent → ∃ session frames, (s.client r).session = some session ∧
      (s.relays r).map Prod.snd = frames.map Frame.sealed ∧ Increasing SealedFrame.seq frames ∧
      ∀ recipient : SessionState, recipient.rxDir = session.txDir →
        recipient.rxMac = session.txMac → recipient.rxSeq = 0 →
        List.Forall₂ (Yields s.broadcasts) (s.relays r)
          (receiveAll rt recipient ((s.relays r).map Prod.snd)) := by
  have hsound := Fanout.sound hrun.view_reachable
  have hcall : ∀ {b : Nat} {message : Broadcast}, s.broadcasts[b]? = some message →
      s.view.calls[b]? = some (Hub.callOf message) := by
    intro b message hlog
    show (s.broadcasts.map Hub.callOf)[b]? = _
    rw [List.getElem?_map, hlog]
    rfl
  have haudience : ∀ {message : Broadcast} {r : Nat}, r ∈ (Hub.callOf message).audience ↔
      r ∈ message.registered ∧ r ≠ message.sender := by
    intro message r
    rw [Hub.callOf, List.mem_filter, decide_eq_true_eq]
  refine ⟨?_, ?_, ?_⟩
  · intro b message hlog r
    have honce : (s.tags r).count b ≤ 1 := List.nodup_iff_count_le_one.mp (hsound.log_nodup r) b
    refine ⟨?_, honce, ?_⟩
    · intro hb
      obtain ⟨call, hlogged, hr⟩ := hsound.addressed r b hb
      obtain rfl := Option.some.inj ((hcall hlog).symm.trans hlogged)
      exact haudience.mp hr
    · intro hregistered hother hhealthy hdone
      rcases hsound.served b _ (hcall hlog) r (haudience.mpr ⟨hregistered, hother⟩) with
        hfailed | hserved | hpending
      · exact absurd (hfailed.symm.trans hhealthy) (by decide)
      · have hpos : 0 < (s.tags r).count b := List.count_pos_iff.mpr hserved
        omega
      · exact absurd hpending hdone
  · intro r
    apply (hsound.ordered r).imp
    intro b b' hbefore message message' hlog hlog' hsame
    exact hbefore _ _ (hcall hlog) (hcall hlog') hsame
  · intro r hr
    obtain ⟨base, session, sent, hsession, _, hsends, hmatch⟩ := hrun.kept.sealing r hr
    have hbase : session = { base with txSeq := session.txSeq, rxSeq := session.rxSeq } :=
      hsends.session
    refine ⟨session, sent.map Prod.snd, hsession, ?_, ?_, ?_⟩
    · exact frames_of_matches hmatch
    · exact List.pairwise_map.mpr hsends.increasing
    · intro recipient hdir hkey hzero
      refine receiveAll_matches hjson hmatch hsends.seals hsends.increasing ?_ ?_ ?_
      · intro entry hentry
        rw [hzero]
        exact (hsends.range entry hentry).1
      · rw [hdir, hbase]
      · rw [hkey, hbase]

/-- A thread in a broadcast is never stuck: whatever the sockets do, it can take its next step. -/
theorem broadcast_progress (rt : Runtime) {s : Hub} (hrun : Hub.Run rt (Hub.WithinBounds rt) s)
    {i b : Nat} {todo : List Nat} (hbusy : (s.thread i).task = some (b, todo)) :
    ∃ event s', HubStep rt event s s' ∧ s'.thread i ≠ s.thread i := by
  have hmoves : ∀ thread : Thread, thread ≠ s.thread i →
      Function.update s.thread i thread i ≠ s.thread i := by
    intro thread hne
    rw [Function.update_self]
    exact hne
  cases hthread : s.thread i with
  | broadcasting number rest =>
      rw [hthread] at hbusy hmoves
      obtain ⟨rfl, rfl⟩ := Prod.mk.inj (Option.some.inj hbusy)
      cases rest with
      | nil => exact ⟨_, _, .finish hthread, hmoves _ nofun⟩
      | cons r rest =>
          have hserving := (Fanout.sound hrun.view_reachable).serving i number (r :: rest)
            (by rw [← hbusy, ← hthread]; rfl)
          obtain ⟨call, hcall, _⟩ := hserving.call
          obtain ⟨message, hlog, _⟩ : ∃ message, s.broadcasts[number]? = some message ∧
              Hub.callOf message = call := by
            have hmap : (s.broadcasts.map Hub.callOf)[number]? = some call := hcall
            rw [List.getElem?_map] at hmap
            exact Option.map_eq_some_iff.mp hmap
          have hshorter : Thread.broadcasting number rest ≠ .broadcasting number (r :: rest) := by
            intro hsame
            exact absurd (congrArg List.length (Thread.broadcasting.inj hsame).2) (by simp)
          rcases hdeliver : (s.client r).deliver rt message.text message.senderName with ⟨result, client⟩
          cases result with
          | error exn => exact ⟨_, _, .deliverFails hthread hlog hdeliver (.inl ⟨exn, rfl⟩), hmoves _ nofun⟩
          | ok frame =>
              cases hbroken : s.broken r with
              | true => exact ⟨_, _, .deliverFails hthread hlog hdeliver (.inr hbroken), hmoves _ nofun⟩
              | false => exact ⟨_, _, .deliver hthread hlog hdeliver hbroken, hmoves _ hshorter⟩
  | dropping r number rest =>
      rw [hthread] at hmoves
      exact ⟨_, _, .drop hthread, hmoves _ nofun⟩
  | _ =>
      rw [hthread] at hbusy
      cases hbusy

/-! ### Two clients -/

/-- The keys of the sample connection with a number. -/
def relayKeys (i : UInt8) : SessionKeys where
  clientWrite := [i, 1]
  serverWrite := [i, 2]
  clientMac := [i, 3]
  serverMac := [i, 4]

/-- A connection that has authenticated. -/
def relayClient (name : String) (i : UInt8) : RegisteredClient :=
  { name, session := some (.new (relayKeys i) false true) }

section TwoClients

variable {rt : Runtime}

/-- The server opens a message of a fresh client, of any length when the client does not compress, and
broadcasts it. -/
theorem exists_broadcast_message (hjson : JsonRoundTrip rt)
    (hparse : ∀ frame, parseMessage rt (wire rt (.sealed frame)) = .ok (.sealed frame))
    {server : RegisteredClient} {keys : SessionKeys} {compress : Bool}
    (hsession : server.session = some (.new keys false compress)) (text sender : String) :
    ∃ message client, messageLoopBody rt server message =
      (.ok (.broadcast text (senderOr sender server.name)), client) := by
  let session := SessionState.new keys true false
  obtain ⟨frame, hframe⟩ : ∃ frame, (session.seal rt.hmac (encodeMessage rt text sender)).1 = .ok frame := by
    apply SessionState.seal_ok_iff.mpr
    refine ⟨?_, ?_, ?_⟩
    · intro hcompress
      cases hcompress
    · simp [session, SessionState.new]
    · simp [session, SessionState.new]
  have hopen : (SessionState.new keys false compress).open rt frame =
      (.ok (encodeMessage rt text sender),
        { SessionState.new keys false compress with rxSeq := 0 + 1 }) :=
    SessionState.open_sealed (Prod.ext hframe (SessionState.seal_snd session rt.hmac _)) rfl rfl
      (Int.lt_add_one_of_le (le_refl 0))
  have haction : (messageLoopBody rt server (wire rt (.sealed frame))).1 =
      .ok (.broadcast text (senderOr sender server.name)) := by
    simp only [messageLoopBody, hparse, hsession, hopen]
    rw [Except.bind, decodeMessage_encodeMessage hjson]
  exact ⟨wire rt (.sealed frame), _, Prod.ext haction rfl⟩

/-- A node with two clients, the first of which has sent a text that is about to be delivered to the
second. -/
theorem exists_delivering (hjson : JsonRoundTrip rt)
    (hparse : ∀ frame, parseMessage rt (wire rt (.sealed frame)) = .ok (.sealed frame))
    (text : String) : ∃ s : Hub, Hub.Run rt (Hub.WithinBounds rt) s ∧
      s.thread 0 = .broadcasting 0 [1] ∧
      s.broadcasts = [{ sender := 0, text, senderName := "ann", registered := [0, 1] }] ∧
      s.client 1 = relayClient "bob" 1 ∧ s.broken 1 = false ∧ s.tags 1 = [] ∧
      s.registry = [0, 1] ∧ ∀ i, i ≠ 0 → (s.thread i).task = none := by
  obtain ⟨message, client, hbody⟩ := exists_broadcast_message hjson hparse
    (rfl : (relayClient "ann" 0).session = some (.new (relayKeys 0) false true)) text "ann"
  have hname : senderOr "ann" (relayClient "ann" 0).name = "ann" := by decide
  rw [hname] at hbody
  have hjoin : Hub.Run rt (Hub.WithinBounds rt) _ :=
    .step .start (show Hub.WithinBounds rt .start (.join 0 (relayClient "ann" 0)) from rfl)
      (.join rfl (.inr ⟨relayKeys 0, true, rfl⟩))
  have hjoin' : Hub.Run rt (Hub.WithinBounds rt) _ :=
    .step hjoin (show Hub.WithinBounds rt _ (.join 1 (relayClient "bob" 1)) from rfl)
      (.join rfl (.inr ⟨relayKeys 1, true, rfl⟩))
  have hsnapshot : [1].Perm (([] ++ [0] ++ [1]).filter fun j => decide (j ≠ 0)) := List.Perm.refl _
  have hrun := Hub.Run.step hjoin'
    (show Hub.WithinBounds rt _ (.receive 0 message) from trivial)
    (HubStep.broadcast rfl hbody hsnapshot)
  refine ⟨_, hrun, rfl, rfl, rfl, rfl, rfl, rfl, ?_⟩
  intro i hi
  by_cases hone : i = 1
  · rw [hone]
    rfl
  · simp [Function.update_of_ne, hi, hone, Hub.start, Thread.task]

/-- With nobody left to serve in any thread, no broadcast is pending. -/
theorem not_pending {s : Hub} {b r : Nat} (hzero : s.thread 0 = .broadcasting b [])
    (hothers : ∀ i, i ≠ 0 → (s.thread i).task = none) (b' : Nat) : ¬ s.Pending b' r := by
  rintro ⟨i, todo, hbusy, hmem⟩
  by_cases hi : i = 0
  · rw [hi, hzero] at hbusy
    obtain ⟨_, rfl⟩ := Prod.mk.inj (Option.some.inj hbusy)
    cases hmem
  · rw [hothers i hi] at hbusy
    cases hbusy

end TwoClients

/-- The sample runtime inverts `json.dumps` on the objects the payload is made of. -/
theorem jsonRoundTrip_sample (mac : Mac) : JsonRoundTrip (sampleRuntime mac) := by
  intro text sender
  rw [messageObject]
  exact jsonLoads_jsonDumps_sample mac text sender

/-- A short message of the first client is sent to the second, once. -/
theorem relay_delivery_hi :
    ∃ s : Hub, Hub.Run (sampleRuntime hmacSha256) (Hub.WithinBounds (sampleRuntime hmacSha256)) s ∧
      s.broadcasts = [{ sender := 0, text := "hi", senderName := "ann", registered := [0, 1] }] ∧
      (s.tags 1).count 0 = 1 := by
  have hjson := jsonRoundTrip_sample hmacSha256
  obtain ⟨s, hrun, hbusy, hlog, hclient, hhealthy, _, _, hothers⟩ :=
    exists_delivering hjson (fun _ => loads_dumps_sample hmacSha256 rfl) "hi"
  have hlogged : s.broadcasts[0]? =
      some { sender := 0, text := "hi", senderName := "ann", registered := [0, 1] } := by
    rw [hlog]
    rfl
  have hbounds : Hub.WithinBounds (sampleRuntime hmacSha256) s (.deliver 0 1 0) := by
    intro message session hmessage hsession
    obtain rfl := Option.some.inj (hlogged.symm.trans hmessage)
    rw [hclient] at hsession
    obtain rfl := Option.some.inj hsession
    exact ⟨fun _ => by decide +kernel, by decide +kernel⟩
  have htask : (s.thread 0).task = some (0, [1]) := by
    rw [hbusy]
    rfl
  have hone : s.thread 1 ≠ .absent := hrun.kept.audience 0 0 [1] htask 1 List.mem_cons_self
  obtain ⟨session, frame, hsession, hframe⟩ := hrun.kept.seal_ok hone hlogged hbounds
  have hrun' := Hub.Run.step hrun hbounds
    (.deliver hbusy hlogged (RegisteredClient.deliver_ok hsession hframe) hhealthy)
  obtain ⟨hfanout, _⟩ := relay_delivery (sampleRuntime hmacSha256) hjson hrun'
  refine ⟨_, hrun', hlog, ?_⟩
  refine (hfanout 0 _ hlogged 1).2.2 (by decide) (by decide) hhealthy ?_
  apply not_pending
  · exact Function.update_self 0 _ s.thread
  · intro i hi
    exact (congrArg Thread.task (Function.update_of_ne hi _ s.thread)).trans (hothers i hi)

/-- A node all of whose connections are authenticated, without bounds. -/
def Hub.Authenticated : Hub → HubEvent → Prop
  | _, .join _ client => client.session.isSome = true
  | _, _ => True

/-- A text whose payload reaches the compressor's limit is not sent to a healthy recipient, which is
dropped from the registry instead. -/
theorem exists_undelivered {rt : Runtime} (hjson : JsonRoundTrip rt)
    (hparse : ∀ frame, parseMessage rt (wire rt (.sealed frame)) = .ok (.sealed frame)) {text : String}
    (hlong : 2 ^ 32 ≤ (encodeMessage rt text "ann").length) :
    ∃ (s : Hub) (message : Broadcast), Hub.Run rt Hub.Authenticated s ∧
      s.broadcasts[0]? = some message ∧ message.text = text ∧ 1 ∈ message.registered ∧
      1 ≠ message.sender ∧ s.broken 1 = false ∧ ¬ s.Pending 0 1 ∧ (s.tags 1).count 0 = 0 ∧
      1 ∉ s.registry := by
  obtain ⟨s, hrun, hbusy, hlog, hclient, hhealthy, htags, hregistry, hothers⟩ :=
    exists_delivering hjson hparse text
  have hallowed : Hub.Run rt Hub.Authenticated s := by
    apply hrun.mono
    intro t event hok
    cases event with
    | join i client => exact hok
    | _ => exact trivial
  have hlogged : s.broadcasts[0]? =
      some { sender := 0, text, senderName := "ann", registered := [0, 1] } := by
    rw [hlog]
    rfl
  -- The second client compresses, and the payload is too long for the compressor.
  have hraises : ∃ exn, ((s.client 1).deliver rt text "ann").1 = .error exn := by
    have hsession : (s.client 1).session = some (.new (relayKeys 1) false true) := by
      rw [hclient]
      rfl
    cases hsealed : ((SessionState.new (relayKeys 1) false true).seal rt.hmac
        (encodeMessage rt text "ann")).1 with
    | ok frame =>
        have hshort := (SessionState.seal_ok_iff.mp ⟨frame, hsealed⟩).1 rfl
        exact absurd hlong (Nat.not_le.mpr hshort)
    | error exn =>
        refine ⟨exn, ?_⟩
        simp only [RegisteredClient.deliver, hsession]
        rw [hsealed]
        rfl
  have hfailed := Hub.Run.step hallowed (show Hub.Authenticated s (.deliver 0 1 0) from trivial)
    (.deliverFails hbusy hlogged rfl (.inl hraises))
  have hdropped := Hub.Run.step hfailed (show Hub.Authenticated _ (.drop 0) from trivial)
    (.drop (Function.update_self 0 _ s.thread))
  refine ⟨_, _, hdropped, hlogged, rfl, List.mem_cons_of_mem 0 List.mem_cons_self, Nat.one_ne_zero,
    hhealthy, ?_, ?_, ?_⟩
  · have hthread : ∀ i, i ≠ 0 → Function.update (Function.update s.thread 0 (.dropping 1 0 [])) 0
        (.broadcasting 0 []) i = s.thread i := by
      intro i hi
      rw [Function.update_of_ne hi, Function.update_of_ne hi]
    apply not_pending
    · exact Function.update_self 0 _ (Function.update s.thread 0 (.dropping 1 0 []))
    · intro i hi
      exact (congrArg Thread.task (hthread i hi)).trans (hothers i hi)
  · show (s.tags 1).count 0 = 0
    rw [htags]
    rfl
  · show 1 ∉ s.registry.erase 1
    rw [hregistry]
    decide

/-- Every character takes an octet. -/
theorem length_le_utf8Encode (chars : List Char) :
    chars.length ≤ (utf8Encode (String.ofList chars)).length := by
  rw [utf8Encode_eq, String.toList_ofList]
  induction chars with
  | nil => exact le_refl _
  | cons c chars ih =>
      have hpos := c.utf8Size_pos
      rw [List.flatMap_cons, List.length_append, List.length_cons, String.length_utf8EncodeChar]
      omega

/-- The payload of a text is at least as long as the text. -/
theorem length_le_encodeMessage_sample (mac : Mac) (n : Nat) :
    n ≤ (encodeMessage (sampleRuntime mac) (String.ofList (List.replicate n 'a')) "ann").length := by
  have hdumps : encodeMessage (sampleRuntime mac) (String.ofList (List.replicate n 'a')) "ann" =
      utf8Encode (.ofList (TextTemplate.render messageTemplate
        [.str (String.ofList (List.replicate n 'a')), .str "ann"])) := rfl
  rw [hdumps]
  refine le_trans ?_ (length_le_utf8Encode _)
  calc n = (List.replicate n 'a').length := List.length_replicate.symm
    _ ≤ (TextTemplate.escape (List.replicate n 'a')).length := TextTemplate.length_le_escape _
    _ ≤ _ := by
      simp only [messageTemplate, TextTemplate.render, String.toList_ofList, List.length_append,
        List.length_cons]
      omega

/-- Without the bounds the relay loses a message: a text of 2^32 characters is not sent to a healthy
recipient, and the recipient is dropped from the registry. -/
theorem oversize_text_is_not_delivered :
    ∃ (s : Hub) (message : Broadcast), Hub.Run (sampleRuntime hmacSha256) Hub.Authenticated s ∧
      s.broadcasts[0]? = some message ∧ message.text = String.ofList (List.replicate (2 ^ 32) 'a') ∧
      1 ∈ message.registered ∧ 1 ≠ message.sender ∧ s.broken 1 = false ∧ ¬ s.Pending 0 1 ∧
      (s.tags 1).count 0 = 0 ∧ 1 ∉ s.registry :=
  exists_undelivered (jsonRoundTrip_sample hmacSha256)
    (fun _ => loads_dumps_sample hmacSha256 rfl) (length_le_encodeMessage_sample hmacSha256 _)

end Priestly
