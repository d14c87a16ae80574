/-
Module: Priestly.Proofs.Interleaving
Layer: Proofs
Purpose: What the threads write to one client does not interleave. The lock keeps relayed frames apart;
  answers are written without it, so the streams stay framed in the runs that keep answers and relayed
  frames apart, and there is a run without this where a stream does not.
Imports: Priestly.Cli.Sockets, Priestly.Python.SampleRuntime
Trusted boundary: none
Main exports: Sockets.view, Sockets.view_step, writes_stay_framed
-/
import Priestly.Cli.Sockets
import Priestly.Python.SampleRuntime

namespace Priestly

open ByteCodec

namespace Worker

/-- The client whose lock the thread holds. -/
def holds : Worker → Option Nat
  | .delivering r _ _ _ => some r
  | _ => none

/-- What thread `i` has written to socket `t` of the frame it is sending there, and what is left. -/
def jobOn (i t : Nat) : Worker → Option (Bytes × Bytes)
  | .answering _ written rest => if i = t then some (written, rest) else none
  | .delivering r written rest _ => if r = t then some (written, rest) else none
  | _ => none

@[simp] theorem holds_idle (joined : Bool) : (idle joined).holds = none := by
  cases joined <;> rfl

@[simp] theorem jobOn_idle (joined : Bool) (i t : Nat) : (idle joined).jobOn i t = none := by
  cases joined <;> rfl

end Worker

namespace Sockets

open Function

variable {rt : Runtime} {s s' : Sockets} {i : Nat} {worker : Worker}

/-! ### The lock -/

/-- Who delivers to a client holds its lock. -/
def Locked (s : Sockets) : Prop := ∀ i r, (s.worker i).holds = some r → s.lock r = some i

/-- A thread that takes no lock, where no lock is released, leaves the locks in order. -/
theorem Locked.frame (h : s.Locked) (hworker : s'.worker = update s.worker i worker)
    (hlock : s'.lock = s.lock) (hholds : worker.holds = none ∨ worker.holds = (s.worker i).holds) :
    s'.Locked := by
  intro j r hj
  rw [hworker] at hj
  rw [hlock]
  by_cases hji : j = i
  · rw [hji, update_self] at hj
    rcases hholds with hnone | hsame
    · rw [hnone] at hj
      cases hj
    · rw [hji]
      exact h i r (hsame.symm.trans hj)
  · rw [update_of_ne hji] at hj
    exact h j r hj

/-- A thread takes a lock that is free. -/
theorem Locked.acquire (h : s.Locked) {r : Nat} (hfree : s.lock r = none)
    (hholds : worker.holds = some r) (hworker : s'.worker = update s.worker i worker)
    (hlock : s'.lock = update s.lock r (some i)) : s'.Locked := by
  intro j r' hj
  rw [hworker] at hj
  rw [hlock]
  by_cases hji : j = i
  · rw [hji, update_self, hholds] at hj
    obtain rfl := Option.some.inj hj
    rw [hji, update_self]
  · rw [update_of_ne hji] at hj
    have hheld := h j r' hj
    have hr : r' ≠ r := by
      rintro rfl
      rw [hfree] at hheld
      cases hheld
    rw [update_of_ne hr]
    exact hheld

/-- A thread releases its lock. -/
theorem Locked.release (h : s.Locked) {r : Nat} (hold : (s.worker i).holds = some r)
    (hholds : worker.holds = none) (hworker : s'.worker = update s.worker i worker)
    (hlock : s'.lock = update s.lock r none) : s'.Locked := by
  intro j r' hj
  rw [hworker] at hj
  rw [hlock]
  by_cases hji : j = i
  · rw [hji, update_self, hholds] at hj
    cases hj
  · rw [update_of_ne hji] at hj
    have hheld := h j r' hj
    have hr : r' ≠ r := by
      rintro rfl
      exact hji (Option.some.inj (hheld.symm.trans (h i r' hold)))
    rw [update_of_ne hr]
    exact hheld

/-- Every step leaves the locks in order. -/
theorem Locked.step (h : s.Locked) {event : SocketEvent} (hstep : SocketStep rt event s s') :
    s'.Locked := by
  cases hstep with
  | acquire busy free frames out => exact h.acquire free rfl rfl rfl
  | sentRelayed busy => exact h.release (congrArg Worker.holds busy) rfl rfl rfl
  | relayFails busy failed => exact h.release (congrArg Worker.holds busy) rfl rfl rfl
  | writeRelayed busy nonempty healthy =>
      exact h.frame rfl rfl (.inr (congrArg Worker.holds busy).symm)
  | sentAnswer busy => exact h.frame rfl rfl (.inl (Worker.holds_idle _))
  | breaks => exact h
  | _ => exact h.frame rfl rfl (.inl rfl)

/-! ### One socket as a shared stream -/

/-- What concerns one socket: its bytes, and the threads that write to it. -/
def view (s : Sockets) (t : Nat) : SharedStream.State Nat UInt8 where
  stream := s.stream t
  job j := (s.worker j).jobOn j t
  dead := s.broken t

/-- One thread moves. -/
theorem view_job (hworker : s'.worker = update s.worker i worker) (t : Nat) :
    (s'.view t).job = update (s.view t).job i (worker.jobOn i t) := by
  funext j
  show (s'.worker j).jobOn j t = _
  rw [hworker]
  by_cases hj : j = i
  · rw [hj, update_self, update_self]
  · rw [update_of_ne hj, update_of_ne hj]
    rfl

/-- A thread that moves without writing to the socket, before and after. -/
theorem view_same {t : Nat} (hworker : s'.worker = update s.worker i worker)
    (hjob : worker.jobOn i t = (s.worker i).jobOn i t) (hstream : s'.stream t = s.stream t)
    (hbroken : s'.broken = s.broken) : s'.view t = s.view t := by
  have hjobs : (s'.view t).job = (s.view t).job := by
    rw [view_job hworker, hjob]
    exact update_eq_self i (s.view t).job
  have hdead : s'.broken t = s.broken t := congrFun hbroken t
  simp only [view] at hjobs ⊢
  rw [hjobs, hstream, hdead]

/-- A socket whose view agrees with the outcome of a step of the shared stream has made that step. -/
theorem step_of_view {t : Nat} {v : SharedStream.State Nat UInt8}
    (hstep : SharedStream.Step IsFrame (s.view t) v) (hstream : s'.stream t = v.stream)
    (hjob : (s'.view t).job = v.job) (hdead : s'.broken t = v.dead) :
    SharedStream.Step IsFrame (s.view t) (s'.view t) := by
  have hview : s'.view t = v := by
    cases v
    simp only [view] at hjob ⊢
    simp only at hstream hjob hdead
    rw [hstream, hjob, hdead]
  rw [hview]
  exact hstep

/-- A thread that writes to nobody takes on a frame for one socket. -/
theorem view_begins {t target : Nat} {bytes : Bytes} (hidle : ∀ t, (s.worker i).jobOn i t = none)
    (hframe : IsFrame bytes) (hworker : s'.worker = update s.worker i worker)
    (hjob : ∀ t, worker.jobOn i t = if target = t then some ([], bytes) else none)
    (hstream : s'.stream = s.stream) (hbroken : s'.broken = s.broken) :
    s'.view t = s.view t ∨ SharedStream.Step IsFrame (s.view t) (s'.view t) := by
  by_cases ht : target = t
  · right
    refine step_of_view (SharedStream.Step.start (hidle t) hframe) (congrFun hstream t) ?_
      (congrFun hbroken t)
    rw [view_job hworker, hjob t, if_pos ht]
  · left
    apply view_same hworker
    · rw [hjob t, if_neg ht, hidle t]
    · exact congrFun hstream t
    · exact hbroken

/-- A thread writes a piece of its frame, while nobody else has a frame partly written. -/
theorem view_writes {t target : Nat} {written part rest : Bytes}
    (hold : ∀ t, (s.worker i).jobOn i t = if target = t then some (written, part ++ rest) else none)
    (hpart : part ≠ []) (hhealthy : s.broken target = false)
    (halone : ∀ j, j ≠ i → ¬ (s.view target).Partway j)
    (hworker : s'.worker = update s.worker i worker)
    (hjob : ∀ t, worker.jobOn i t = if target = t then some (written ++ part, rest) else none)
    (hstream : s'.stream = update s.stream target (s.stream target ++ part))
    (hbroken : s'.broken = s.broken) :
    s'.view t = s.view t ∨ SharedStream.Step IsFrame (s.view t) (s'.view t) := by
  by_cases ht : target = t
  · right
    subst ht
    have hbusy : (s.view target).job i = some (written, part ++ rest) := by
      show (s.worker i).jobOn i target = _
      rw [hold target, if_pos rfl]
    refine step_of_view (SharedStream.Step.write hbusy hpart hhealthy halone) ?_ ?_
      (congrFun hbroken target)
    · rw [hstream, update_self]
      rfl
    · rw [view_job hworker, hjob target, if_pos rfl]
  · left
    apply view_same hworker
    · rw [hjob t, hold t, if_neg ht, if_neg ht]
    · rw [hstream, update_of_ne (Ne.symm ht)]
    · exact hbroken

/-- A thread is through with its frame, or gives it up because the socket has failed. -/
theorem view_ends {t target : Nat} {written rest : Bytes}
    (hold : ∀ t, (s.worker i).jobOn i t = if target = t then some (written, rest) else none)
    (hend : rest = [] ∨ s.broken target = true) (hworker : s'.worker = update s.worker i worker)
    (hjob : ∀ t, worker.jobOn i t = none) (hstream : s'.stream = s.stream)
    (hbroken : s'.broken = s.broken) :
    s'.view t = s.view t ∨ SharedStream.Step IsFrame (s.view t) (s'.view t) := by
  by_cases ht : target = t
  · right
    subst ht
    have hnone : (s'.view target).job = update (s.view target).job i none := by
      rw [view_job hworker, hjob target]
    rcases hend with rfl | hfailed
    · have hbusy : (s.view target).job i = some (written, []) := by
        show (s.worker i).jobOn i target = _
        rw [hold target, if_pos rfl]
      exact step_of_view (SharedStream.Step.done hbusy) (congrFun hstream target) hnone
        (congrFun hbroken target)
    · exact step_of_view (SharedStream.Step.abandon (i := i) hfailed) (congrFun hstream target) hnone
        (congrFun hbroken target)
  · left
    apply view_same hworker
    · rw [hjob t, hold t, if_neg ht]
    · exact congrFun hstream t
    · exact hbroken

/-! ### Steps and runs -/

/-- What `deliver` writes is a frame. -/
theorem isFrame_of_deliver {result : Except Exn Frame} {ws : WebSocket} {key : MaskingKey}
    {bytes : Bytes} (h : (result >>= fun frame => ws.send key (dumps rt frame)) = .ok bytes) :
    IsFrame bytes := by
  obtain ⟨frame, _, hsend⟩ := bind_eq_ok h
  exact WebSocket.sendFrame_isFrame hsend

/-- While an answer is written to a client and no relayed frame is partly written to it, nobody else has
a frame partly written. -/
theorem alone_of_answering (hseparate : ¬ s.RelayPartway i) (j : Nat) (hj : j ≠ i) : ¬ (s.view i).Partway j := by
  rintro ⟨written', rest', hjob, hpartway⟩
  have hjob' : (s.worker j).jobOn j i = some (written', rest') := hjob
  cases hworker : s.worker j with
  | answering joined written rest =>
      rw [hworker, Worker.jobOn, if_neg hj] at hjob'
      cases hjob'
  | delivering r written rest relay =>
      rw [hworker, Worker.jobOn] at hjob'
      by_cases hr : r = i
      · rw [if_pos hr] at hjob'
        obtain ⟨rfl, rfl⟩ := Prod.mk.inj (Option.some.inj hjob')
        exact hseparate ⟨j, written, rest, relay, hr ▸ hworker, hpartway⟩
      · rw [if_neg hr] at hjob'
        cases hjob'
  | _ =>
      rw [hworker] at hjob'
      cases hjob'

/-- While a frame is relayed to a client under its lock and no answer is partly written to it, nobody else
has a frame partly written. -/
theorem Locked.alone_of_delivering (h : s.Locked) {r : Nat} (hholds : (s.worker i).holds = some r)
    (hseparate : ¬ s.AnswerPartway r) (j : Nat) (hj : j ≠ i) : ¬ (s.view r).Partway j := by
  rintro ⟨written', rest', hjob, hpartway⟩
  have hjob' : (s.worker j).jobOn j r = some (written', rest') := hjob
  cases hworker : s.worker j with
  | answering joined written rest =>
      rw [hworker, Worker.jobOn] at hjob'
      by_cases hr : j = r
      · rw [if_pos hr] at hjob'
        obtain ⟨rfl, rfl⟩ := Prod.mk.inj (Option.some.inj hjob')
        exact hseparate ⟨joined, written, rest, hr ▸ hworker, hpartway⟩
      · rw [if_neg hr] at hjob'
        cases hjob'
  | delivering r' written rest relay =>
      rw [hworker, Worker.jobOn] at hjob'
      by_cases hr : r' = r
      · have hheld : s.lock r = some j := h j r (by rw [hworker, hr]; rfl)
        exact hj (Option.some.inj (hheld.symm.trans (h i r hholds)))
      · rw [if_neg hr] at hjob'
        cases hjob'
  | _ =>
      rw [hworker] at hjob'
      cases hjob'

/-- Every step that keeps answers and relayed frames apart is, for each socket, a step of the shared
stream or none. -/
theorem view_step (h : s.Locked) {event : SocketEvent} (hseparate : s.Separate event)
    (hstep : SocketStep rt event s s') (t : Nat) :
    s'.view t = s.view t ∨ SharedStream.Step IsFrame (s.view t) (s'.view t) := by
  have hnobody : ∀ {w : Worker} {i : Nat}, s.worker i = w → (∀ t, w.jobOn i t = none) →
      ∀ t, (s.worker i).jobOn i t = none := by
    intro w i hw hnone t
    rw [hw]
    exact hnone t
  have hsome : ∀ {w : Worker} {i target : Nat} {written rest : Bytes}, s.worker i = w →
      (∀ t, w.jobOn i t = if target = t then some (written, rest) else none) →
      ∀ t, (s.worker i).jobOn i t = if target = t then some (written, rest) else none := by
    intro w i target written rest hw hjob t
    rw [hw]
    exact hjob t
  cases hstep with
  | accept free => exact .inl (view_same rfl (hnobody free (fun _ => rfl) t).symm rfl rfl)
  | greet reading out =>
      exact view_begins (hnobody reading fun _ => rfl) (WebSocket.sendFrame_isFrame out) rfl
        (fun _ => rfl) rfl rfl
  | join reading fresh => exact .inl (view_same rfl (hnobody reading (fun _ => rfl) t).symm rfl rfl)
  | ping reading short out =>
      exact view_begins (hnobody reading fun _ => Worker.jobOn_idle _ _ _)
        (WebSocket.sendFrame_isFrame out) rfl (fun _ => rfl) rfl rfl
  | close reading =>
      exact .inl (view_same rfl (hnobody reading (fun _ => Worker.jobOn_idle _ _ _) t).symm rfl rfl)
  | reply reading body out =>
      exact view_begins (hnobody reading fun _ => rfl) (WebSocket.sendFrame_isFrame out) rfl
        (fun _ => rfl) rfl rfl
  | replyFails reading body out =>
      exact .inl (view_same rfl (hnobody reading (fun _ => rfl) t).symm rfl rfl)
  | crash reading body => exact .inl (view_same rfl (hnobody reading (fun _ => rfl) t).symm rfl rfl)
  | broadcast reading body snapshot =>
      exact .inl (view_same rfl (hnobody reading (fun _ => rfl) t).symm rfl rfl)
  | receiveFails reading =>
      exact .inl (view_same rfl (hnobody reading (fun _ => Worker.jobOn_idle _ _ _) t).symm rfl rfl)
  | acquire busy free frames out =>
      exact view_begins (hnobody busy fun _ => rfl) (isFrame_of_deliver out) rfl (fun _ => rfl) rfl rfl
  | acquireFails busy free frames out =>
      exact .inl (view_same rfl (hnobody busy (fun _ => rfl) t).symm rfl rfl)
  | @writeAnswer _ i joined written part rest busy nonempty healthy =>
      have hseparate' : ¬ s.RelayPartway i := by
        simp only [Separate, busy] at hseparate
        exact hseparate
      exact view_writes (hsome busy fun _ => rfl) nonempty healthy (alone_of_answering hseparate') rfl
        (fun _ => rfl) rfl rfl
  | @writeRelayed _ i r written part rest relay busy nonempty healthy =>
      have hseparate' : ¬ s.AnswerPartway r := by
        simp only [Separate, busy] at hseparate
        exact hseparate
      exact view_writes (hsome busy fun _ => rfl) nonempty healthy
        (h.alone_of_delivering (congrArg Worker.holds busy) hseparate') rfl (fun _ => rfl) rfl rfl
  | sentAnswer busy =>
      exact view_ends (hsome busy fun _ => rfl) (.inl rfl) rfl (fun _ => Worker.jobOn_idle _ _ _) rfl
        rfl
  | sentRelayed busy =>
      exact view_ends (hsome busy fun _ => rfl) (.inl rfl) rfl (fun _ => rfl) rfl rfl
  | answerFails busy failed =>
      exact view_ends (hsome busy fun _ => rfl) (.inr failed) rfl (fun _ => rfl) rfl rfl
  | relayFails busy failed =>
      exact view_ends (hsome busy fun _ => rfl) (.inr failed) rfl (fun _ => rfl) rfl rfl
  | drop busy => exact .inl (view_same rfl (hnobody busy (fun _ => rfl) t).symm rfl rfl)
  | finish busy => exact .inl (view_same rfl (hnobody busy (fun _ => rfl) t).symm rfl rfl)
  | leave going => exact .inl (view_same rfl (hnobody going (fun _ => rfl) t).symm rfl rfl)
  | @breaks _ i =>
      by_cases ht : t = i
      · right
        subst ht
        exact step_of_view SharedStream.Step.fail rfl rfl (update_self t true s.broken)
      · left
        simp only [view, update_of_ne ht]

/-- In every run the locks are in order. -/
theorem Run.locked {allowed : Sockets → SocketEvent → Prop} (h : Run rt allowed s) : s.Locked := by
  induction h with
  | start => nofun
  | step _ _ hstep ih => exact ih.step hstep

/-- A run that keeps answers and relayed frames apart is, for each socket, a run of the shared stream. -/
theorem Run.view_reachable (h : Run rt Separate s) (t : Nat) :
    Relation.ReflTransGen (SharedStream.Step IsFrame) SharedStream.State.start (s.view t) := by
  induction h with
  | start => exact .refl
  | step hrun hseparate hstep ih =>
      rcases view_step hrun.locked hseparate hstep t with hsame | hmoved
      · rw [hsame]
        exact ih
      · exact ih.tail hmoved

end Sockets

/-- Writes to one client do not interleave as long as answers and relayed frames are kept apart: in every
run in which bytes of an answer are written only while no relayed frame is partly written to the same
socket, and bytes of a relayed frame only while no answer is, the bytes written to each socket are at all
times a concatenation of complete frames followed by at most a prefix of one. -/
theorem writes_stay_framed (rt : Runtime) {s : Sockets} (hrun : Sockets.Run rt Sockets.Separate s)
    (t : Nat) : Framed (s.stream t) :=
  SharedStream.whole (hrun.view_reachable t)

/-! ### Two clients of an open node -/

section TwoClients

/-- A client of an open node. -/
def openClient (name : String) : RegisteredClient := { name, session := none }

/-- The `WebSocket` of a connection to the server. -/
def serverSide : WebSocket := { isClient := false, closed := false }

/-- The pong that answers a ping with the payload `p`. -/
def samplePong : Bytes := [0x8A, 0x01, 0x70]

/-- The text of the chat frame that is relayed. -/
def sampleChat : Bytes := utf8Encode (dumps (sampleRuntime hmacSha256) (.chat "hi" "ann"))

theorem length_sampleChat : sampleChat.length < 126 := by decide +kernel

/-- Steps other than writes are allowed in the runs at hand. -/
def AllowsOthers (allowed : Sockets → SocketEvent → Prop) : Prop :=
  ∀ s event, (∀ i part, event ≠ .write i part) → allowed s event

variable {allowed : Sockets → SocketEvent → Prop}

/-- The second of two clients has sent a ping, and its thread is about to answer. -/
theorem exists_ponging (hothers : AllowsOthers allowed) :
    ∃ s : Sockets, Sockets.Run (sampleRuntime hmacSha256) allowed s ∧
      s.client 0 = openClient "ann" ∧ s.client 1 = openClient "bob" ∧ s.ws 1 = serverSide ∧
      s.lock 1 = none ∧ s.worker 0 = .looping ∧ s.worker 1 = .answering true [] samplePong ∧
      (∀ i, i ≠ 0 → i ≠ 1 → s.worker i = .absent) ∧ s.broken 1 = false ∧ s.stream 1 = [] ∧
      s.registry = [0, 1] := by
  have hstart : Sockets.Run (sampleRuntime hmacSha256) allowed .start := .start
  have haccept := Sockets.Run.step hstart (hothers _ (.accept 0) nofun) (.accept rfl)
  have haccept' := Sockets.Run.step haccept (hothers _ (.accept 1) nofun) (.accept rfl)
  have hjoin := Sockets.Run.step haccept' (hothers _ (.join 0 (openClient "ann")) nofun)
    (.join rfl (.inl rfl))
  have hjoin' := Sockets.Run.step hjoin (hothers _ (.join 1 (openClient "bob")) nofun)
    (.join rfl (.inl rfl))
  have hpong : serverSide.sendFrame (Vector.replicate 4 0) .pong [0x70] = .ok samplePong := by decide
  have hping := Sockets.Run.step hjoin' (hothers _ (.ping 1 [0x70]) nofun)
    (.ping (show _ = Worker.idle true from rfl) (by decide) hpong)
  refine ⟨_, hping, rfl, rfl, rfl, rfl, rfl, rfl, ?_, rfl, rfl, rfl⟩
  intro i hzero hone
  simp [Function.update_of_ne, hzero, hone, Sockets.start]

/-- The first client says something, and its thread is about to relay it to the second. -/
theorem exists_relaying (hothers : AllowsOthers allowed) {s : Sockets}
    (hrun : Sockets.Run (sampleRuntime hmacSha256) allowed s) (hann : s.client 0 = openClient "ann")
    (hbob : s.client 1 = openClient "bob") (hws : s.ws 1 = serverSide) (hlock : s.lock 1 = none)
    (hworker : s.worker 0 = .looping) (hregistry : s.registry = [0, 1]) :
    ∃ s' : Sockets, Sockets.Run (sampleRuntime hmacSha256) allowed s' ∧
      s'.worker 0 = .delivering 1 [] (0x81 :: UInt8.ofNat sampleChat.length :: sampleChat)
        { text := "hi", senderName := "ann", todo := [] } ∧
      (∀ i, i ≠ 0 → s'.worker i = s.worker i) ∧ s'.broken = s.broken ∧ s'.stream = s.stream := by
  have hparse : parseMessage (sampleRuntime hmacSha256)
      (wire (sampleRuntime hmacSha256) (.chat "hi" "ann")) = .ok (.chat "hi" "ann") :=
    @loads_dumps_sample hmacSha256 (.chat "hi" "ann") rfl
  have hbody : messageLoopBody (sampleRuntime hmacSha256) (s.client 0)
      (wire (sampleRuntime hmacSha256) (.chat "hi" "ann")) =
        (.ok (.broadcast "hi" "ann"), openClient "ann") := by
    rw [messageLoopBody, hparse, hann]
    rfl
  have hsnapshot : [1].Perm (s.registry.filter (· ≠ 0)) := by
    rw [hregistry]
    exact List.Perm.refl _
  have hframes : (s.client 1).deliver (sampleRuntime hmacSha256) "hi" "ann" =
      (.ok (.chat "hi" "ann"), openClient "bob") := by
    rw [hbob]
    rfl
  have hout : ((Except.ok (Frame.chat "hi" "ann") : Except Exn Frame) >>= fun frame =>
      (s.ws 1).send (Vector.replicate 4 0) (dumps (sampleRuntime hmacSha256) frame)) =
        .ok (0x81 :: UInt8.ofNat sampleChat.length :: sampleChat) := by
    rw [hws]
    exact encodeFrame_short .text length_sampleChat
  have hbroadcast := Sockets.Run.step hrun (hothers s (.receive 0 _) nofun)
    (.broadcast hworker hbody hsnapshot)
  have hacquire := Sockets.Run.step hbroadcast (hothers _ (.acquire 0 1) nofun)
    (.acquire (Function.update_self 0 _ s.worker) hlock hframes hout)
  refine ⟨_, hacquire, ?_, ?_, rfl, rfl⟩
  · simp only [Function.update_self]
  · intro i hi
    simp only [Function.update_of_ne hi]

/-- A pong and a relayed frame that do not overlap leave the stream framed. -/
theorem writes_stay_framed_pong :
    ∃ s : Sockets, Sockets.Run (sampleRuntime hmacSha256) Sockets.Separate s ∧
      s.stream 1 = [0x8A, 0x01, 0x70, 0x81] ∧ Framed (s.stream 1) := by
  have hothers : AllowsOthers Sockets.Separate := by
    intro s event hevent
    cases event with
    | write i part => exact absurd rfl (hevent i part)
    | _ => trivial
  obtain ⟨s, hrun, hann, hbob, hws, hlock, hzero, hone, habsent, hhealthy, hstream, hregistry⟩ :=
    exists_ponging hothers
  have hseparate : s.Separate (.write 1 samplePong) := by
    simp only [Sockets.Separate, hone]
    rintro ⟨i, written, rest, relay, hbusy, _⟩
    by_cases hi : i = 0
    · rw [hi, hzero] at hbusy
      cases hbusy
    · by_cases hi' : i = 1
      · rw [hi', hone] at hbusy
        cases hbusy
      · rw [habsent i hi hi'] at hbusy
        cases hbusy
  have hpong := Sockets.Run.step hrun hseparate
    (.writeAnswer (hone.trans (congrArg _ (List.append_nil samplePong).symm)) (by decide) hhealthy)
  have hsent := Sockets.Run.step hpong (hothers _ (.sent 1) nofun)
    (.sentAnswer (Function.update_self 1 _ s.worker))
  obtain ⟨s', hrun', hzero', hsame, hbroken, hstream'⟩ :=
    exists_relaying hothers hsent hann hbob hws hlock hzero hregistry
  have hidle : s'.worker 1 = .looping := by
    rw [hsame 1 Nat.one_ne_zero]
    simp only [Function.update_self]
    rfl
  have hseparate' : s'.Separate (.write 0 [0x81]) := by
    simp only [Sockets.Separate, hzero']
    rintro ⟨joined, written, rest, hbusy, _⟩
    rw [hidle] at hbusy
    cases hbusy
  have hhealthy' : s'.broken 1 = false := by
    rw [hbroken]
    exact hhealthy
  have hrun'' := Sockets.Run.step hrun' hseparate' (.writeRelayed hzero' (by decide) hhealthy')
  refine ⟨_, hrun'', ?_, writes_stay_framed _ hrun'' 1⟩
  have hbefore : s'.stream 1 = samplePong := by
    rw [hstream']
    simp only [Function.update_self, hstream]
    rfl
  show Function.update s'.stream 1 (s'.stream 1 ++ [0x81]) 1 = _
  rw [Function.update_self, hbefore]
  rfl

/-- A frame that is relayed between two pieces of a pong breaks the framing of the stream. -/
theorem pong_and_relayed_frame_interleave :
    ∃ s : Sockets, Sockets.Run (sampleRuntime hmacSha256) (fun _ _ => True) s ∧
      ¬ Framed (s.stream 1) := by
  have hothers : AllowsOthers fun _ _ => True := fun _ _ _ => trivial
  obtain ⟨s, hrun, hann, hbob, hws, hlock, hzero, hone, habsent, hhealthy, hstream, hregistry⟩ :=
    exists_ponging hothers
  have hbusy : s.worker 1 = .answering true [] ([0x8A, 0x01] ++ [0x70]) := hone
  have hpong := Sockets.Run.step hrun trivial (.writeAnswer hbusy (by decide) hhealthy)
  obtain ⟨s', hrun', hzero', _, hbroken, hstream'⟩ :=
    exists_relaying hothers hpong hann hbob hws hlock hzero hregistry
  have hbusy' : s'.worker 0 = .delivering 1 [] ([0x81, UInt8.ofNat sampleChat.length] ++ sampleChat)
      { text := "hi", senderName := "ann", todo := [] } := hzero'
  have hhealthy' : s'.broken 1 = false := by
    rw [hbroken]
    exact hhealthy
  have hrun'' := Sockets.Run.step hrun' trivial (.writeRelayed hbusy' (List.cons_ne_nil _ _) hhealthy')
  refine ⟨_, hrun'', ?_⟩
  have hbefore : s'.stream 1 = [0x8A, 0x01] := by
    rw [hstream']
    simp only [Function.update_self, hstream]
    rfl
  show ¬ Framed (Function.update s'.stream 1
    (s'.stream 1 ++ [0x81, UInt8.ofNat sampleChat.length]) 1)
  rw [Function.update_self, hbefore]
  intro hframed
  -- Read as a pong of one byte, the stream goes on with the length of the relayed frame.
  have hnext : 128 ≤ (UInt8.ofNat sampleChat.length).toNat := hframed.next_frame (by decide) rfl
  have hshort := length_sampleChat
  rw [UInt8.toNat_ofNat'] at hnext
  omega

end TwoClients

end Priestly
