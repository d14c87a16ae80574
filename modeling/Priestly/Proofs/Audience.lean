/-
Module: Priestly.Proofs.Audience
Layer: Proofs
Purpose: The registry of the chat server and its broadcasts in every run, on open nodes as on protected ones and
  whatever the messages are. A delivery that fails removes its recipient from the registry, so a client that
  stays registered misses nothing.
Imports: Priestly.Proofs.Relay
Trusted boundary: none
Main exports: Hub.fan, Hub.Attended, Hub.Run.attended, relay_reaches_registered
-/
import Priestly.Proofs.Relay

namespace Priestly

namespace Hub

open Function

variable {rt : Runtime} {s s' : Hub} {failed failed' : Nat → Bool}

/-- The broadcasts of the server, where those count as failed that a delivery has failed for. -/
def fan (s : Hub) (failed : Nat → Bool) : Fanout.State Nat := { s.view with failed }

/-- A thread is about to remove the client from the registry. -/
def BeingDropped (s : Hub) (r : Nat) : Prop := ∃ i b todo, s.thread i = .dropping r b todo

/-- What holds of the server at any time, if these are the clients a delivery has failed for. -/
structure Attended (s : Hub) (failed : Nat → Bool) : Prop where
  sound : Fanout.Sound (s.fan failed)
  nodup : s.registry.Nodup
  present : ∀ i ∈ s.registry, s.thread i ≠ .absent
  going : ∀ i ∈ s.registry, ∀ ending, s.thread i ≠ .ended ending
  snapshots : ∀ message ∈ s.broadcasts, ∀ r ∈ message.registered, s.thread r ≠ .absent
  failing : ∀ r, failed r = true → s.thread r ≠ .absent ∧ (r ∉ s.registry ∨ s.BeingDropped r)

/-- A thread that moves without serving anybody is not seen by the fan-out. -/
theorem fan_same {i : Nat} {thread : Thread} (htask : thread.task = (s.thread i).task)
    (hthread : s'.thread = update s.thread i thread) (htags : s'.tags = s.tags)
    (hlog : s'.broadcasts = s.broadcasts) : s'.fan failed = s.fan failed := by
  have htasks : (fun j => (s'.thread j).task) = fun j => (s.thread j).task := by
    funext j
    rw [hthread, task_update, htask]
    exact congrFun (update_eq_self i s.view.task) j
  simp only [fan, view, htasks, htags, hlog]

/-- A hub that the fan-out sees as a sound state. -/
theorem sound_of_fan {v : Fanout.State Nat} (hsound : Fanout.Sound v) (htask : ∀ j, (s.thread j).task = v.task j)
    (hlog : ∀ j, s.tags j = v.log j) (hfailed : failed = v.failed)
    (hcalls : s.broadcasts.map callOf = v.calls) : Fanout.Sound (s.fan failed) := by
  have hfan : s.fan failed = v := by
    cases v
    simp only [fan, view, Fanout.State.mk.injEq]
    exact ⟨funext htask, funext hlog, hfailed, hcalls⟩
  rw [hfan]
  exact hsound

/-- Who is served next is connected. -/
theorem Attended.recipient (h : s.Attended failed) {i r b : Nat} {todo : List Nat}
    (busy : s.thread i = .broadcasting b (r :: todo)) : s.thread r ≠ .absent := by
  have hbusy : (s.fan failed).task i = some (b, r :: todo) := congrArg Thread.task busy
  obtain ⟨call, hcall, _, haudience⟩ := (h.sound.serving i b (r :: todo) hbusy).call
  have hlogged : (s.broadcasts.map callOf)[b]? = some call := hcall
  rw [List.getElem?_map] at hlogged
  obtain ⟨message, hmessage, rfl⟩ := Option.map_eq_some_iff.mp hlogged
  have hmember := haudience r List.mem_cons_self
  exact h.snapshots message (List.mem_of_getElem? hmessage) r (List.mem_filter.mp hmember).1

/-- A connected thread moves, and nobody joins. -/
theorem Attended.move (h : s.Attended failed) {i : Nat} {thread : Thread}
    (hsound : Fanout.Sound (s'.fan failed')) (hthread : s'.thread = update s.thread i thread)
    (hi : s.thread i ≠ .absent) (hthere : thread ≠ .absent) (hregistry : s'.registry.Sublist s.registry)
    (hgone : ∀ ending, thread = .ended ending → i ∉ s'.registry)
    (hlog : ∀ message ∈ s'.broadcasts, message ∈ s.broadcasts ∨ message.registered = s.registry)
    (hfailed : ∀ r, failed' r = true →
      (failed r = true ∧ ∀ b todo, s.thread i = .dropping r b todo → r ∉ s'.registry) ∨
      (s.thread r ≠ .absent ∧ ∃ b todo, thread = .dropping r b todo)) : s'.Attended failed' := by
  have habsent : ∀ j, s.thread j ≠ .absent → s'.thread j ≠ .absent := by
    intro j hj hnone
    rw [hthread] at hnone
    exact hj ((absent_update hi hthere j).mp hnone)
  constructor
  · exact hsound
  · exact h.nodup.sublist hregistry
  · exact fun j hj => habsent j (h.present j (hregistry.subset hj))
  · intro j hj ending hended
    rw [hthread] at hended
    by_cases hji : j = i
    · rw [hji, update_self] at hended
      exact hgone ending hended (hji ▸ hj)
    · rw [update_of_ne hji] at hended
      exact h.going j (hregistry.subset hj) ending hended
  · intro message hmessage r hr
    rcases hlog message hmessage with hold | hnew
    · exact habsent r (h.snapshots message hold r hr)
    · exact habsent r (h.present r (hnew ▸ hr))
  · intro r hr
    rcases hfailed r hr with ⟨hold, hdropped⟩ | ⟨hthere', b, todo, hdropping⟩
    · obtain ⟨hconnected, hmissing⟩ := h.failing r hold
      refine ⟨habsent r hconnected, ?_⟩
      rcases hmissing with hout | ⟨j, b, todo, hj⟩
      · exact .inl fun hin => hout (hregistry.subset hin)
      · by_cases hji : j = i
        · exact .inl (hdropped b todo (hji ▸ hj))
        · refine .inr ⟨j, b, todo, ?_⟩
          rw [hthread, update_of_ne hji]
          exact hj
    · refine ⟨habsent r hthere', .inr ⟨i, b, todo, ?_⟩⟩
      rw [hthread, update_self, hdropping]

/-- A connected thread moves without serving anybody, and nobody joins. -/
theorem Attended.pass (h : s.Attended failed) {i : Nat} {thread : Thread}
    (htask : thread.task = (s.thread i).task) (hthread : s'.thread = update s.thread i thread)
    (htags : s'.tags = s.tags) (hlog : s'.broadcasts = s.broadcasts) (hi : s.thread i ≠ .absent)
    (hthere : thread ≠ .absent) (hregistry : s'.registry.Sublist s.registry)
    (hgone : ∀ ending, thread = .ended ending → i ∉ s'.registry)
    (hdropped : ∀ r b todo, s.thread i = .dropping r b todo → r ∉ s'.registry) : s'.Attended failed := by
  have hsound : Fanout.Sound (s'.fan failed) := by
    rw [fan_same htask hthread htags hlog]
    exact h.sound
  apply h.move hsound hthread hi hthere hregistry hgone
  · intro message hmessage
    rw [hlog] at hmessage
    exact .inl hmessage
  · exact fun r hr => .inl ⟨hr, hdropped r⟩

/-- Joining keeps what holds of the server. -/
theorem Attended.join (h : s.Attended failed) {i : Nat} {client : RegisteredClient}
    (free : s.thread i = .absent) :
    Attended { s with
      client := update s.client i client
      thread := update s.thread i .looping
      registry := s.registry ++ [i] } failed := by
  have hother : ∀ j, s.thread j ≠ .absent → j ≠ i := by
    rintro j hj rfl
    exact hj free
  have habsent : ∀ j, s.thread j ≠ .absent → update s.thread i .looping j ≠ .absent := by
    intro j hj
    rw [update_of_ne (hother j hj)]
    exact hj
  constructor
  · have hsame : Hub.fan { s with
        client := update s.client i client
        thread := update s.thread i .looping
        registry := s.registry ++ [i] } failed = s.fan failed := by
      refine fan_same ?_ rfl rfl rfl
      rw [free]
      rfl
    rw [hsame]
    exact h.sound
  · apply List.nodup_append.mpr
    refine ⟨h.nodup, List.nodup_singleton i, ?_⟩
    intro j hj k hk
    rw [List.mem_singleton.mp hk]
    exact hother j (h.present j hj)
  · intro j hj
    rcases List.mem_append.mp hj with hold | hnew
    · exact habsent j (h.present j hold)
    · rw [List.mem_singleton.mp hnew]
      simp only [update_self]
      exact Thread.noConfusion
  · intro j hj ending
    rcases List.mem_append.mp hj with hold | hnew
    · simp only [update_of_ne (hother j (h.present j hold))]
      exact h.going j hold ending
    · rw [List.mem_singleton.mp hnew]
      simp only [update_self]
      exact Thread.noConfusion
  · exact fun message hmessage r hr => habsent r (h.snapshots message hmessage r hr)
  · intro r hr
    obtain ⟨hconnected, hmissing⟩ := h.failing r hr
    refine ⟨habsent r hconnected, ?_⟩
    rcases hmissing with hout | ⟨j, b, todo, hj⟩
    · left
      intro hin
      rcases List.mem_append.mp hin with hold | hnew
      · exact hout hold
      · exact hother r hconnected (List.mem_singleton.mp hnew)
    · refine .inr ⟨j, b, todo, ?_⟩
      have hji : j ≠ i := by
        rintro rfl
        rw [free] at hj
        cases hj
      simp only [update_of_ne hji]
      exact hj

/-- Every step keeps what holds of the server; a delivery that fails adds its recipient to those it has failed
for. -/
theorem Attended.step (h : s.Attended failed) {event : HubEvent} (hstep : HubStep rt event s s') :
    ∃ failed', s'.Attended failed' := by
  have hwhole : s.registry.Sublist s.registry := List.Sublist.refl _
  have hrunning : ∀ {thread : Thread} {i : Nat}, thread = .looping → s.thread i = thread →
      s.thread i ≠ .absent ∧ ∀ r b todo, s.thread i ≠ .dropping r b todo := by
    rintro thread i rfl hthread
    rw [hthread]
    exact ⟨Thread.noConfusion, fun _ _ _ => Thread.noConfusion⟩
  cases hstep with
  | join free fresh => exact ⟨failed, h.join free⟩
  | @reply _ i message frame client looping body healthy =>
      obtain ⟨hi, hnot⟩ := hrunning rfl looping
      refine ⟨failed, h.pass rfl (update_eq_self i s.thread).symm ?_ rfl hi hi hwhole ?_ ?_⟩
      · funext j
        exact congrArg (List.map Prod.fst) (filterMap_update_reply s.written i frame j)
      · intro ending hended
        rw [looping] at hended
        cases hended
      · exact fun r b todo hdropping => absurd hdropping (hnot r b todo)
  | replyFails looping body _ | crash looping body | receiveFails looping =>
      obtain ⟨hi, hnot⟩ := hrunning rfl looping
      refine ⟨failed, h.pass ?_ rfl rfl rfl hi Thread.noConfusion hwhole ?_ ?_⟩
      · rw [looping]
        rfl
      · exact fun _ => Thread.noConfusion
      · exact fun r b todo hdropping => absurd hdropping (hnot r b todo)
  | @broadcast _ i message text senderName client todo looping body snapshot =>
      obtain ⟨hi, hnot⟩ := hrunning rfl looping
      have hidle : (s.fan failed).task i = none := congrArg Thread.task looping
      have hself : i ∉ s.registry.filter (· ≠ i) := by
        intro hmem
        simpa using (List.mem_filter.mp hmem).2
      have hlength : (s.fan failed).calls.length = s.broadcasts.length := List.length_map _
      refine ⟨failed, h.move (sound_of_fan (h.sound.call hidle (h.nodup.filter _) hself snapshot) ?_
        (fun _ => rfl) rfl ?_) rfl hi Thread.noConfusion hwhole (fun _ => Thread.noConfusion) ?_ ?_⟩
      · intro j
        rw [hlength]
        exact task_update s i (.broadcasting s.broadcasts.length todo) j
      · exact List.map_append
      · intro other hother
        rcases List.mem_append.mp hother with hold | hnew
        · exact .inl hold
        · rw [List.mem_singleton.mp hnew]
          exact .inr rfl
      · exact fun r hr => .inl ⟨hr, fun b todo hdropping => absurd hdropping (hnot r b todo)⟩
  | @deliver _ i r b todo message frame client busy log frames healthy =>
      have hbusy : (s.fan failed).task i = some (b, r :: todo) := congrArg Thread.task busy
      have hi : s.thread i ≠ .absent := by
        rw [busy]
        exact Thread.noConfusion
      refine ⟨failed, h.move (sound_of_fan (h.sound.serve hbusy) (task_update s i (.broadcasting b todo)) ?_ rfl
        rfl) rfl hi Thread.noConfusion hwhole (fun _ => Thread.noConfusion) (fun _ => .inl) ?_⟩
      · intro j
        show ((update s.written r (s.written r ++ [.relayed b frame]) j).filterMap
          Written.relay?).map Prod.fst = update s.tags r (s.tags r ++ [b]) j
        by_cases hj : j = r
        · rw [hj, filterMap_update_relayed, update_self, List.map_append]
          rfl
        · rw [update_of_ne hj, update_of_ne hj]
          rfl
      · intro k hk
        refine .inl ⟨hk, fun b' todo' hdropping => ?_⟩
        rw [busy] at hdropping
        cases hdropping
  | @deliverFails _ i r b todo message result client busy log frames hfails =>
      have hbusy : ({ s.fan failed with failed := update failed r true } : Fanout.State Nat).task i =
          some (b, r :: todo) := congrArg Thread.task busy
      have hi : s.thread i ≠ .absent := by
        rw [busy]
        exact Thread.noConfusion
      have hr : s.thread r ≠ .absent := h.recipient busy
      have hfailed : update (s.fan failed).failed r true r = true := update_self r true (s.fan failed).failed
      refine ⟨update failed r true, h.move (sound_of_fan ((h.sound.fail r).skip hbusy hfailed)
        (task_update s i (.dropping r b todo)) (fun _ => rfl) rfl rfl) rfl hi Thread.noConfusion hwhole
        (fun _ => Thread.noConfusion) (fun _ => .inl) ?_⟩
      intro k hk
      by_cases hkr : k = r
      · subst hkr
        exact .inr ⟨hr, b, todo, rfl⟩
      · rw [update_of_ne hkr] at hk
        refine .inl ⟨hk, fun b' todo' hdropping => ?_⟩
        rw [busy] at hdropping
        cases hdropping
  | @drop _ i r b todo busy =>
      have hi : s.thread i ≠ .absent := by
        rw [busy]
        exact Thread.noConfusion
      refine ⟨failed, h.pass ?_ rfl rfl rfl hi Thread.noConfusion (List.erase_sublist ..)
        (fun _ => Thread.noConfusion) ?_⟩
      · rw [busy]
        rfl
      · intro k b' todo' hdropping
        rw [busy] at hdropping
        obtain ⟨rfl, _⟩ := Thread.dropping.inj hdropping
        exact h.nodup.not_mem_erase
  | @finish _ i b busy =>
      have hbusy : (s.fan failed).task i = some (b, []) := congrArg Thread.task busy
      have hi : s.thread i ≠ .absent := by
        rw [busy]
        exact Thread.noConfusion
      refine ⟨failed, h.move (sound_of_fan (h.sound.finish hbusy) (task_update s i .looping) (fun _ => rfl) rfl
        rfl) rfl hi Thread.noConfusion hwhole (fun _ => Thread.noConfusion) (fun _ => .inl) ?_⟩
      intro k hk
      refine .inl ⟨hk, fun b' todo' hdropping => ?_⟩
      rw [busy] at hdropping
      cases hdropping
  | @leave _ i ending going =>
      have hi : s.thread i ≠ .absent := by
        rw [going]
        exact Thread.noConfusion
      refine ⟨failed, h.pass ?_ rfl rfl rfl hi Thread.noConfusion (List.erase_sublist ..)
        (fun _ _ => h.nodup.not_mem_erase) ?_⟩
      · rw [going]
        rfl
      · intro r b todo hdropping
        rw [going] at hdropping
        cases hdropping
  | breaks => exact ⟨failed, h.sound, h.nodup, h.present, h.going, h.snapshots, h.failing⟩

/-- Before the first connection. -/
theorem attended_start : start.Attended fun _ => false := by
  constructor
  · exact Fanout.Sound.start
  · exact List.nodup_nil
  · intro i hi
    cases hi
  · intro i hi
    cases hi
  · intro message hmessage
    cases hmessage
  · intro r hr
    cases hr

/-- In every run. -/
theorem Run.attended {allowed : Hub → HubEvent → Prop} (h : Run rt allowed s) :
    ∃ failed, s.Attended failed := by
  induction h with
  | start => exact ⟨_, attended_start⟩
  | step _ _ hstep ih =>
      obtain ⟨failed, hattended⟩ := ih
      exact hattended.step hstep

/-- The call of a broadcast in the log. -/
theorem getElem?_calls {b : Nat} {message : Broadcast} (h : s.broadcasts[b]? = some message) :
    (s.fan failed).calls[b]? = some (callOf message) := by
  show (s.broadcasts.map callOf)[b]? = _
  rw [List.getElem?_map, h]
  rfl

theorem mem_audience {message : Broadcast} {r : Nat} :
    r ∈ (callOf message).audience ↔ r ∈ message.registered ∧ r ≠ message.sender := by
  rw [callOf, List.mem_filter, decide_eq_true_eq]

namespace Attended

/-- A client that stays registered is served once by every broadcast it is meant for. -/
theorem served_once (h : s.Attended failed) {b r : Nat} {message : Broadcast}
    (hlog : s.broadcasts[b]? = some message) (hregistered : r ∈ message.registered)
    (hother : r ≠ message.sender) (hdone : ¬ s.Pending b r) (hstays : r ∈ s.registry)
    (hkept : ¬ s.BeingDropped r) : (s.tags r).count b = 1 := by
  have honce : (s.tags r).count b ≤ 1 := List.nodup_iff_count_le_one.mp (h.sound.log_nodup r) b
  rcases h.sound.served b _ (getElem?_calls hlog) r (mem_audience.mpr ⟨hregistered, hother⟩) with
    hfailed | hserved | hpending
  · rcases (h.failing r hfailed).2 with hout | hdropped
    · exact absurd hstays hout
    · exact absurd hdropped hkept
  · have hpos : 0 < (s.tags r).count b := List.count_pos_iff.mpr hserved
    omega
  · exact absurd hpending hdone

/-- Who is served by a broadcast was registered when it was made, and did not make it. -/
theorem meant (h : s.Attended failed) {b r : Nat} {message : Broadcast} (hlog : s.broadcasts[b]? = some message)
    (hb : b ∈ s.tags r) : r ∈ message.registered ∧ r ≠ message.sender := by
  obtain ⟨call, hlogged, hr⟩ := h.sound.addressed r b hb
  obtain rfl := Option.some.inj ((getElem?_calls hlog).symm.trans hlogged)
  exact mem_audience.mp hr

/-- The broadcasts of one sender reach a client in their order. -/
theorem in_order (h : s.Attended failed) (r : Nat) :
    (s.tags r).Pairwise fun b b' => ∀ message message' : Broadcast, s.broadcasts[b]? = some message →
      s.broadcasts[b']? = some message' → message.sender = message'.sender → b < b' := by
  apply (h.sound.ordered r).imp
  intro b b' hbefore message message' hlog hlog' hsame
  exact hbefore _ _ (getElem?_calls hlog) (getElem?_calls hlog') hsame

end Attended

end Hub

/-- The registry and the broadcasts of a node, open or protected, in every run: the registry has no client twice
and none whose handler has not begun or has ended; a broadcast is written to nobody but the clients registered
at its snapshot other than its sender, at most once to each; the broadcasts of one sender are written to each
client in the order they were made; and a client that is still registered and that no thread is about to drop
has been served every broadcast it is meant for, unless the broadcast still has to serve it. -/
theorem relay_reaches_registered (rt : Runtime) {allowed : Hub → HubEvent → Prop} {s : Hub}
    (hrun : Hub.Run rt allowed s) :
    (s.registry.Nodup ∧ ∀ i ∈ s.registry, s.thread i ≠ .absent ∧ ∀ ending, s.thread i ≠ .ended ending) ∧
    (∀ (b : Nat) (message : Broadcast), s.broadcasts[b]? = some message → ∀ r,
      (b ∈ s.tags r → r ∈ message.registered ∧ r ≠ message.sender) ∧
      (s.tags r).count b ≤ 1 ∧
      (r ∈ message.registered → r ≠ message.sender → ¬ s.Pending b r → r ∈ s.registry →
        ¬ s.BeingDropped r → (s.tags r).count b = 1)) ∧
    ∀ r, (s.tags r).Pairwise fun b b' => ∀ message message' : Broadcast,
      s.broadcasts[b]? = some message → s.broadcasts[b']? = some message' →
      message.sender = message'.sender → b < b' := by
  obtain ⟨failed, hattended⟩ := hrun.attended
  refine ⟨⟨hattended.nodup, fun i hi => ⟨hattended.present i hi, hattended.going i hi⟩⟩, ?_,
    hattended.in_order⟩
  intro b message hlog r
  refine ⟨hattended.meant hlog, List.nodup_iff_count_le_one.mp (hattended.sound.log_nodup r) b, ?_⟩
  exact hattended.served_once hlog

/-- A message on an open node, where the relay of a text has no bounds to keep. -/
theorem relay_reaches_registered_open :
    ∃ s : Hub, Hub.Run (sampleRuntime hmacSha256) (fun _ _ => True) s ∧ s.registry = [0, 1] ∧
      (s.tags 1).count 0 = 1 := by
  have hchat : parseMessage (sampleRuntime hmacSha256)
      (wire (sampleRuntime hmacSha256) (.chat "hi" "ann")) = .ok (.chat "hi" "ann") :=
    @loads_dumps_sample hmacSha256 (.chat "hi" "ann") rfl
  have hbody : messageLoopBody (sampleRuntime hmacSha256) { name := "user1", session := none }
      (wire (sampleRuntime hmacSha256) (.chat "hi" "ann")) =
        (.ok (.broadcast "hi" "ann"), { name := "user1", session := none }) := by
    rw [messageLoopBody, hchat]
    rfl
  have hstart : Hub.Run (sampleRuntime hmacSha256) (fun _ _ => True) .start := .start
  have hjoin := hstart.step trivial (@HubStep.join _ _ 0 { name := "user1", session := none } rfl (.inl rfl))
  have hjoin' := hjoin.step trivial (@HubStep.join _ _ 1 { name := "user2", session := none } rfl (.inl rfl))
  have hsnapshot : [1].Perm (([] ++ [0] ++ [1]).filter fun j => decide (j ≠ 0)) := List.Perm.refl _
  have hreceive := hjoin'.step trivial (@HubStep.broadcast _ _ 0 _ _ _ _ _ rfl hbody hsnapshot)
  have hdeliver := hreceive.step trivial (@HubStep.deliver _ _ 0 1 0 _ _ _ _ rfl rfl rfl rfl)
  refine ⟨_, hdeliver, rfl, ?_⟩
  obtain ⟨_, hserved, _⟩ := relay_reaches_registered _ hdeliver
  refine (hserved 0 _ rfl 1).2.2 (by decide) (by decide) ?_ (by decide) ?_
  · rintro ⟨i, todo, htask, hmem⟩
    by_cases hi : i = 0
    · subst hi
      obtain ⟨_, rfl⟩ := Prod.mk.inj (Option.some.inj htask)
      cases hmem
    · by_cases hone : i = 1
      · subst hone
        cases htask
      · simp [Function.update_of_ne, hi, hone, Hub.start, Thread.task] at htask
  · rintro ⟨i, b, todo, hdropping⟩
    by_cases hi : i = 0
    · subst hi
      cases hdropping
    · by_cases hone : i = 1
      · subst hone
        cases hdropping
      · simp [Function.update_of_ne, hi, hone, Hub.start] at hdropping

end Priestly
