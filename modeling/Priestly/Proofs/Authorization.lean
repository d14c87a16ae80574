/-
Module: Priestly.Proofs.Authorization
Layer: Proofs
Purpose: The gate of a protected node. What the handler hands over to the hub is a client with the session
  `run_server` returned on its connection; from then on the session only moves its counters, and the
  message loop broadcasts nothing but what that session opens.
Imports: Priestly.Cli.Node, Priestly.Proofs.DriverRuns, Priestly.Proofs.PasswordBinding,
  Priestly.Proofs.Relay
Trusted boundary: none
Main exports: handleSession_registers, Node.Guarded, Node.Guarded.step, protected_node
-/
import Priestly.Cli.Node
import Priestly.Proofs.DriverRuns
import Priestly.Proofs.PasswordBinding
import Priestly.Proofs.Relay

namespace Priestly

open ByteCodec Interaction

/-! ### The handler up to the registration -/

/-- A node that requires a password has one. -/
theorem ServerConfig.exists_secret (cfg : ServerConfig) (h : cfg.passwordRequired = true) :
    ∃ password, cfg.secret = some password := by
  rw [ServerConfig.secret, if_pos h]
  cases hpassword : cfg.password with
  | none =>
      rw [ServerConfig.passwordRequired, hpassword] at h
      cases h
  | some password => exact ⟨_, rfl⟩

/-- The frame is no plaintext message. -/
def Frame.NotChat : Frame → Prop
  | .chat _ _ => False
  | _ => True

section Handler

variable (rt : Runtime) (grp : ModpGroup) (cfg : ServerConfig) (b : Nat)

theorem recvFrame_writes {p : Frame → Prop} : (recvFrame rt).Writes p := by
  apply Program.Writes.bind Program.Writes.await
  intro message
  exact Program.Writes.lift _

theorem fail_writes {α : Type} (reason : String) : (fail reason : Driver α).Writes Frame.NotChat := by
  apply Program.Writes.bind
  · exact Program.Writes.tryEmit trivial
  · intro _
    trivial

theorem serverOnConfirm_writes (commit : Bytes) (frame : Frame) :
    (serverOnConfirm rt grp b commit frame).Writes Frame.NotChat := by
  cases frame with
  | covenantConfirm text confirmC =>
      apply Program.Writes.bind
      · rw [parseElementOrFail]
        cases parseElement rt grp text with
        | ok value => trivial
        | error exn => exact fail_writes exn.str
      · intro publicA
        split
        · exact fail_writes _
        · apply Program.Writes.bind (Program.Writes.lift _)
          intro matches'
          split
          · exact fail_writes _
          · apply Program.Writes.bind
            · exact Program.Writes.emit trivial
            · intro _
              apply Program.Writes.bind (Program.Writes.lift _)
              intro keys
              trivial
  | _ => exact fail_writes _

theorem serverOnCommit_writes (password : Bytes) (frame : Frame) :
    (serverOnCommit rt grp b password frame).Writes Frame.NotChat := by
  cases frame with
  | covenantCommit text =>
      rw [serverOnCommit]
      cases bytesFromHex text.toList with
      | none => exact fail_writes _
      | some commit =>
          simp only
          split
          · exact fail_writes _
          · apply Program.Writes.bind
            · exact Program.Writes.emit trivial
            · intro _
              apply Program.Writes.bind (recvFrame_writes rt)
              exact serverOnConfirm_writes rt grp b commit
  | _ => exact fail_writes _

/-- The handshake writes no plaintext message. -/
theorem runServer_writes (password : Bytes) : (runServer rt grp b password).Writes Frame.NotChat := by
  apply Program.Writes.bind (recvFrame_writes rt)
  exact serverOnCommit_writes rt grp b password

theorem authenticate_writes (password : Bytes) :
    (authenticate rt grp b password).Writes Frame.NotChat := by
  apply Program.Writes.handle
  · apply Program.Writes.bind (runServer_writes rt grp b password)
    intro session
    trivial
  · intro exn
    cases exn <;> trivial

/-- Nothing the handler writes before the registration is a plaintext message. -/
theorem handleSession_writes : (handleSession rt grp cfg b).Writes Frame.NotChat := by
  apply Program.Writes.bind (recvFrame_writes rt)
  intro frame
  cases frame with
  | hello handshake =>
      apply Program.Writes.bind
      · exact Program.Writes.emit trivial
      · intro _
        cases cfg.secret with
        | none => trivial
        | some password =>
            apply Program.Writes.bind (authenticate_writes rt grp b password)
            intro session
            trivial
  | _ =>
      apply Program.Writes.bind
      · exact Program.Writes.emit trivial
      · intro _
        trivial

/-- A frame that was read is what the message parses to. -/
theorem recvFrame_done {exchanges : List (Exchange WsMessage Frame Exn)} {frame : Frame}
    (h : Program.After (recvFrame rt) exchanges (.done frame)) :
    ∃ message, exchanges = [.read (.ok message)] ∧ parseMessage rt message = .ok frame := by
  obtain ⟨message, before, after, rfl, hread, hparse⟩ := h.bind_done
  obtain ⟨rfl, hframe⟩ := hparse.lift_done
  exact ⟨message, by rw [hread.await_done, List.append_nil], hframe⟩

theorem fail_returns {q : SessionState → Prop} (reason : String) :
    (fail reason : Driver SessionState).Returns q := by
  apply Program.Returns.bind
  intro _
  trivial

/-- The session of the server is a fresh one, and compresses. -/
theorem runServer_returns (password : Bytes) :
    (runServer rt grp b password).Returns fun session => ∃ keys, session = .new keys false true := by
  apply Program.Returns.bind
  intro frame
  cases frame with
  | covenantCommit text =>
      rw [serverOnCommit]
      cases bytesFromHex text.toList with
      | none => exact fail_returns _
      | some commit =>
          simp only
          split
          · exact fail_returns _
          · apply Program.Returns.bind
            intro _
            apply Program.Returns.bind
            intro frame
            cases frame with
            | covenantConfirm text confirmC =>
                apply Program.Returns.bind
                intro publicA
                split
                · exact fail_returns _
                · apply Program.Returns.bind
                  intro verified
                  split
                  · exact fail_returns _
                  · apply Program.Returns.bind
                    intro _
                    apply Program.Returns.bind
                    intro keys
                    exact ⟨keys, rfl⟩
            | _ => exact fail_returns _
  | _ => exact fail_returns _

/-- Under the `except` clause there is a session when `run_server` has returned it. -/
theorem authenticate_done {password : Bytes} {exchanges : List (Exchange WsMessage Frame Exn)}
    {session : SessionState}
    (h : Program.After (authenticate rt grp b password) exchanges (.done (some session))) :
    Program.After (runServer rt grp b password) exchanges (.done session) := by
  rcases h.handle_done with hreturned | ⟨exn, before, after, _, _, hhandler⟩
  · obtain ⟨value, before, after, rfl, hserver, hvalue⟩ := hreturned.bind_done
    obtain ⟨rfl, hsome⟩ := hvalue.done_inv
    obtain rfl := Option.some.inj (Program.done.inj hsome)
    rw [List.append_nil]
    exact hserver
  · cases exn with
    | covenantError text => exact nomatch hhandler.done_inv.2
    | _ => exact nomatch hhandler.raise_inv.2

/-- On a protected node the handler registers the session that `run_server` has returned over what was
exchanged behind HELLO and HELLO_ACK; for a browser compression is turned off before. -/
theorem handleSession_registers {password : Bytes} (hsecret : cfg.secret = some password)
    {exchanges : List (Exchange WsMessage Frame Exn)} {client : RegisteredClient}
    (h : Program.After (handleSession rt grp cfg b) exchanges (.done (some client))) :
    ∃ message handshake later session,
      exchanges = .read (.ok message) ::
        .wrote (.helloAck "ok" cfg.serverName cfg.passwordRequired) none :: later ∧
      parseMessage rt message = .ok (.hello handshake) ∧
      Program.After (runServer rt grp b password) later (.done session) ∧
      client = authenticatedClient s!"user{handshake.userId}" (handshake.status = "browser") session := by
  obtain ⟨frame, before, after, rfl, hread, hrest⟩ := h.bind_done
  obtain ⟨message, rfl, hparse⟩ := recvFrame_done rt hread
  cases frame with
  | hello handshake =>
      obtain ⟨_, wrote, later, rfl, hack, hauthenticated⟩ := hrest.bind_done
      rw [hack.emit_done]
      simp only [hsecret] at hauthenticated
      obtain ⟨result, covenant, nothing, rfl, hserver, hreturn⟩ := hauthenticated.bind_done
      obtain ⟨rfl, hclient⟩ := hreturn.done_inv
      rw [List.append_nil]
      cases result with
      | none => exact nomatch Program.done.inj hclient
      | some session =>
          refine ⟨message, handshake, covenant, session, rfl, hparse, ?_, ?_⟩
          · exact authenticate_done rt grp b hserver
          · exact Option.some.inj (Program.done.inj hclient)
  | _ =>
      obtain ⟨_, wrote, later, _, _, hreturn⟩ := hrest.bind_done
      exact nomatch Program.done.inj hreturn.done_inv.2

end Handler

/-! ### The message loop -/

/-- The loop writes no plaintext message back. -/
theorem messageLoopBody_reply {rt : Runtime} {client : RegisteredClient} {message : WsMessage}
    {frame : Frame} (h : (messageLoopBody rt client message).1 = .ok (.reply frame)) : frame.NotChat := by
  rw [messageLoopBody] at h
  cases hparse : parseMessage rt message with
  | error exn =>
      rw [hparse] at h
      cases h
  | ok parsed =>
      rw [hparse] at h
      cases parsed with
      | «sealed» sealedFrame =>
          cases hsession : client.session with
          | none =>
              simp only [hsession] at h
              cases h
              trivial
          | some session =>
              simp only [hsession] at h
              cases hhanded : (session.open rt sealedFrame).1.bind (decodeMessage rt) with
              | ok handed =>
                  simp only [hhanded] at h
                  cases h
              | error exn =>
                  simp only [hhanded] at h
                  split at h
                  · cases h
                    trivial
                  · cases h
      | chat text sender =>
          cases hsession : client.session with
          | none =>
              simp only [hsession] at h
              cases h
          | some session =>
              simp only [hsession] at h
              cases h
              trivial
      | _ =>
          cases h
          trivial

/-- With a session the loop broadcasts only what the session opens from a sealed frame. -/
theorem messageLoopBody_broadcast {rt : Runtime} {client : RegisteredClient} {session : SessionState}
    (hsession : client.session = some session) {message : WsMessage} {text senderName : String}
    (h : (messageLoopBody rt client message).1 = .ok (.broadcast text senderName)) :
    ∃ frame plaintext sender, parseMessage rt message = .ok (.sealed frame) ∧
      (session.open rt frame).1 = .ok plaintext ∧ decodeMessage rt plaintext = .ok (text, sender) ∧
      senderName = senderOr sender client.name := by
  rw [messageLoopBody] at h
  cases hparse : parseMessage rt message with
  | error exn =>
      rw [hparse] at h
      cases h
  | ok parsed =>
      rw [hparse] at h
      cases parsed with
      | «sealed» sealedFrame =>
          simp only [hsession] at h
          cases hhanded : (session.open rt sealedFrame).1.bind (decodeMessage rt) with
          | ok handed =>
              obtain ⟨text', sender⟩ := handed
              simp only [hhanded] at h
              cases h
              obtain ⟨plaintext, hopen, hdecode⟩ := bind_eq_ok hhanded
              exact ⟨sealedFrame, plaintext, sender, rfl, hopen, hdecode, rfl⟩
          | error exn =>
              simp only [hhanded] at h
              split at h
              · cases h
              · cases h
      | chat text sender =>
          simp only [hsession] at h
          cases h
      | _ => cases h

/-! ### One step of the hub -/

/-- An engaged thread is not absent. -/
theorem Thread.Engaged.ne_absent {thread : Thread} (h : thread.Engaged) : thread ≠ .absent := by
  rintro rfl
  rcases h with hrunning | ⟨ending, hleaving⟩
  · exact hrunning
  · cases hleaving

namespace Hub

open Function

variable {rt : Runtime} {s s' : Hub} {event : HubEvent}

/-- What a step inside the hub does to the threads and the registry: one engaged thread moves, it goes on
serving what it was serving or starts on the registered clients, and when it ends it is no longer
registered. -/
def Moves (s s' : Hub) : Prop :=
  (s'.thread = s.thread ∧ s'.registry = s.registry) ∨
    ∃ i thread, (s.thread i).Engaged ∧ s'.thread = update s.thread i thread ∧
      (thread.Engaged ∧ s'.registry.Sublist s.registry ∨
        (∃ ending, thread = .ended ending) ∧ s'.registry = s.registry.erase i) ∧
      ∀ b todo, thread.task = some (b, todo) → ∀ r ∈ todo,
        r ∈ s.registry ∨ ∃ b' todo', (s.thread i).task = some (b', todo') ∧ r ∈ todo'

namespace Moves

/-- The same threads are connected. -/
theorem absent_iff (h : s.Moves s') (i : Nat) : s'.thread i = .absent ↔ s.thread i = .absent := by
  rcases h with ⟨hthread, _⟩ | ⟨k, thread, hk, hthread, hend, _⟩
  · rw [hthread]
  · rw [hthread]
    apply absent_update hk.ne_absent
    rcases hend with ⟨hgoing, _⟩ | ⟨⟨ending, rfl⟩, _⟩
    · exact hgoing.ne_absent
    · exact nofun

/-- No connection is registered twice. -/
theorem nodup (h : s.Moves s') (hnodup : s.registry.Nodup) : s'.registry.Nodup := by
  rcases h with ⟨_, hregistry⟩ | ⟨k, thread, _, _, ⟨_, hsub⟩ | ⟨_, hregistry⟩, _⟩
  · rw [hregistry]
    exact hnodup
  · exact hnodup.sublist hsub
  · rw [hregistry]
    exact hnodup.erase k

/-- Registered connections have engaged threads. -/
theorem registered (h : s.Moves s') (hnodup : s.registry.Nodup)
    (hregistered : ∀ i ∈ s.registry, (s.thread i).Engaged) : ∀ i ∈ s'.registry, (s'.thread i).Engaged := by
  intro i hi
  rcases h with ⟨hthread, hregistry⟩ | ⟨k, thread, _, hthread, hend, _⟩
  · rw [hregistry] at hi
    rw [hthread]
    exact hregistered i hi
  · rw [hthread]
    rcases hend with ⟨hgoing, hsub⟩ | ⟨_, hregistry⟩
    · by_cases hik : i = k
      · rw [hik, update_self]
        exact hgoing
      · rw [update_of_ne hik]
        exact hregistered i (hsub.subset hi)
    · rw [hregistry, hnodup.mem_erase_iff] at hi
      rw [update_of_ne hi.1]
      exact hregistered i hi.2

/-- Those who are served are registered, or were served before. -/
theorem audience (h : s.Moves s') {i b : Nat} {todo : List Nat} (hbusy : (s'.thread i).task = some (b, todo))
    {r : Nat} (hr : r ∈ todo) :
    r ∈ s.registry ∨ ∃ j b' todo', (s.thread j).task = some (b', todo') ∧ r ∈ todo' := by
  rcases h with ⟨hthread, _⟩ | ⟨k, thread, _, hthread, _, htodo⟩
  · rw [hthread] at hbusy
    exact .inr ⟨i, b, todo, hbusy, hr⟩
  · rw [hthread] at hbusy
    by_cases hik : i = k
    · rw [hik, update_self] at hbusy
      rcases htodo b todo hbusy r hr with hin | ⟨b', todo', hbefore, hin⟩
      · exact .inl hin
      · exact .inr ⟨k, b', todo', hbefore, hin⟩
    · rw [update_of_ne hik] at hbusy
      exact .inr ⟨i, b, todo, hbusy, hr⟩

end Moves

/-- A thread that moves without a recipient to serve. -/
theorem moves_idle {i : Nat} {thread : Thread} (hthread : s'.thread = update s.thread i thread)
    (hi : (s.thread i).Engaged) (ht : thread.Engaged) (hidle : thread.task = none)
    (hregistry : s'.registry.Sublist s.registry) : s.Moves s' := by
  right
  refine ⟨i, thread, hi, hthread, .inl ⟨ht, hregistry⟩, ?_⟩
  intro b todo htask
  rw [hidle] at htask
  cases htask

/-- A thread that goes on with the broadcast it is in. -/
theorem moves_busy {i b : Nat} {thread : Thread} {todo todo' : List Nat}
    (hthread : s'.thread = update s.thread i thread) (hi : (s.thread i).Engaged) (ht : thread.Engaged)
    (hbefore : (s.thread i).task = some (b, todo)) (hafter : thread.task = some (b, todo'))
    (hsub : todo' ⊆ todo) (hregistry : s'.registry.Sublist s.registry) :
    s.Moves s' := by
  right
  refine ⟨i, thread, hi, hthread, .inl ⟨ht, hregistry⟩, ?_⟩
  intro b' rest htask r hr
  rw [hafter] at htask
  obtain ⟨_, rfl⟩ := Prod.mk.inj (Option.some.inj htask)
  exact .inr ⟨b, todo, hbefore, hsub hr⟩

theorem step_moves (within : ∀ i client, event ≠ .join i client) (hstep : HubStep rt event s s') :
    s.Moves s' := by
  cases hstep with
  | @join _ i client free fresh => exact absurd rfl (within i client)
  | reply looping body healthy => exact .inl ⟨rfl, rfl⟩
  | replyFails looping body failed =>
      exact moves_idle rfl (looping ▸ .inl trivial) (.inr ⟨_, rfl⟩) rfl (List.Sublist.refl _)
  | crash looping body =>
      exact moves_idle rfl (looping ▸ .inl trivial) (.inr ⟨_, rfl⟩) rfl (List.Sublist.refl _)
  | @broadcast _ i message text senderName client todo looping body snapshot =>
      right
      refine ⟨i, _, looping ▸ .inl trivial, rfl, .inl ⟨.inl trivial, List.Sublist.refl _⟩, ?_⟩
      intro b rest htask r hr
      obtain ⟨_, rfl⟩ := Prod.mk.inj (Option.some.inj htask)
      exact .inl (List.mem_filter.mp (snapshot.mem_iff.mp hr)).1
  | receiveFails looping =>
      exact moves_idle rfl (looping ▸ .inl trivial) (.inr ⟨_, rfl⟩) rfl (List.Sublist.refl _)
  | @deliver _ i r b todo message frame client busy log frames healthy =>
      exact moves_busy rfl (busy ▸ .inl trivial) (.inl trivial) (congrArg Thread.task busy) rfl
        (List.subset_cons_self r todo) (List.Sublist.refl _)
  | @deliverFails _ i r b todo message result client busy log frames failed =>
      exact moves_busy rfl (busy ▸ .inl trivial) (.inl trivial) (congrArg Thread.task busy) rfl
        (List.subset_cons_self r todo) (List.Sublist.refl _)
  | drop busy =>
      exact moves_busy rfl (busy ▸ .inl trivial) (.inl trivial) (congrArg Thread.task busy) rfl
        (List.Subset.refl _) List.erase_sublist
  | finish busy =>
      exact moves_idle rfl (busy ▸ .inl trivial) (.inl trivial) rfl (List.Sublist.refl _)
  | @leave _ i ending going =>
      right
      refine ⟨i, .ended ending, .inr ⟨ending, going⟩, rfl, .inr ⟨⟨ending, rfl⟩, rfl⟩, ?_⟩
      exact nofun
  | breaks => exact .inl ⟨rfl, rfl⟩

/-- A broadcast is logged only for a message that a thread in the loop has received. -/
theorem step_logs (hstep : HubStep rt event s s') :
    s'.broadcasts = s.broadcasts ∨
      ∃ i message text senderName, event = .receive i message ∧ s.thread i = .looping ∧
        (messageLoopBody rt (s.client i) message).1 = .ok (.broadcast text senderName) ∧
        s'.broadcasts = s.broadcasts ++
          [{ sender := i, text, senderName, registered := s.registry }] := by
  cases hstep with
  | @broadcast _ i message text senderName client todo looping body snapshot =>
      exact .inr ⟨i, message, text, senderName, rfl, looping, congrArg Prod.fst body, rfl⟩
  | _ => exact .inl rfl

/-- A frame is relayed only to a recipient that a thread is serving. -/
theorem step_relays (hstep : HubStep rt event s s') (r : Nat) :
    s'.relays r = s.relays r ∨ ∃ i b todo, (s.thread i).task = some (b, todo) ∧ r ∈ todo := by
  cases hstep with
  | reply looping body healthy => exact .inl (filterMap_update_reply s.written _ _ r)
  | @deliver _ i k b todo message frame client busy log frames healthy =>
      by_cases hr : r = k
      · right
        rw [hr]
        exact ⟨i, b, k :: todo, congrArg Thread.task busy, List.mem_cons_self⟩
      · left
        simp only [relays, update_of_ne hr]
  | _ => exact .inl rfl

/-- What a step hands to a socket is a reply of the loop, or the frame for a recipient that a thread is
serving. -/
theorem step_offers (hstep : HubStep rt event s s') {j : Nat} {entry : Written}
    (hoffer : event.offer rt s = some (j, entry)) :
    (∃ frame message, entry = .reply frame ∧
        (messageLoopBody rt (s.client j) message).1 = .ok (.reply frame)) ∨
      ∃ i b todo text sender frame, entry = .relayed b frame ∧ (s.thread i).task = some (b, todo) ∧
        j ∈ todo ∧ ((s.client j).deliver rt text sender).1 = .ok frame := by
  have hreceive : ∀ i message, HubEvent.offer rt s (.receive i message) = some (j, entry) →
      ∃ frame message, entry = .reply frame ∧
        (messageLoopBody rt (s.client j) message).1 = .ok (.reply frame) := by
    intro i message h
    rw [HubEvent.offer] at h
    split at h
    · obtain ⟨rfl, rfl⟩ := Prod.mk.inj (Option.some.inj h)
      exact ⟨_, message, rfl, ‹_›⟩
    · cases h
  have hdeliver : ∀ i r b todo, s.thread i = .broadcasting b (r :: todo) →
      HubEvent.offer rt s (.deliver i r b) = some (j, entry) →
      ∃ i b todo text sender frame, entry = .relayed b frame ∧ (s.thread i).task = some (b, todo) ∧
        j ∈ todo ∧ ((s.client j).deliver rt text sender).1 = .ok frame := by
    intro i r b todo busy h
    rw [HubEvent.offer] at h
    split at h
    · cases h
    · split at h
      · obtain ⟨rfl, rfl⟩ := Prod.mk.inj (Option.some.inj h)
        exact ⟨i, b, r :: todo, _, _, _, rfl, congrArg Thread.task busy, List.mem_cons_self, ‹_›⟩
      · cases h
  cases hstep with
  | reply looping body healthy => exact .inl (hreceive _ _ hoffer)
  | replyFails looping body failed => exact .inl (hreceive _ _ hoffer)
  | crash looping body => exact .inl (hreceive _ _ hoffer)
  | broadcast looping body snapshot => exact .inl (hreceive _ _ hoffer)
  | deliver busy log frames healthy => exact .inr (hdeliver _ _ _ _ busy hoffer)
  | deliverFails busy log frames failed => exact .inr (hdeliver _ _ _ _ busy hoffer)
  | _ => cases hoffer

/-- What is written to a socket has been handed to it in the same step. -/
theorem step_written (hstep : HubStep rt event s s') {j : Nat} {entry : Written}
    (hwritten : entry ∈ s'.written j) : entry ∈ s.written j ∨ event.offer rt s = some (j, entry) := by
  cases hstep with
  | @reply _ i message frame client looping body healthy =>
      by_cases hj : j = i
      · subst hj
        simp only [update_self] at hwritten
        rcases List.mem_append.mp hwritten with hold | hnew
        · exact .inl hold
        · right
          rw [HubEvent.offer, body, List.mem_singleton.mp hnew]
      · simp only [update_of_ne hj] at hwritten
        exact .inl hwritten
  | @deliver _ i r b todo message frame client busy log frames healthy =>
      by_cases hj : j = r
      · subst hj
        simp only [update_self] at hwritten
        rcases List.mem_append.mp hwritten with hold | hnew
        · exact .inl hold
        · right
          simp only [HubEvent.offer, log, frames, List.mem_singleton.mp hnew]
      · simp only [update_of_ne hj] at hwritten
        exact .inl hwritten
  | _ => exact .inl hwritten

/-- A connection that has been relayed nothing is registered with a fresh session. -/
theorem sealsFrom_join {i : Nat} {client : RegisteredClient} (join : HubStep rt (.join i client) s s')
    {keys : SessionKeys} {compress : Bool} (hsession : client.session = some (.new keys false compress))
    (hsilent : s.relays i = []) : s'.SealsFrom rt i (.new keys false compress) := by
  cases join with
  | join free fresh =>
      refine ⟨_, [], ?_, Endpoint.sends_start keys false compress, ?_⟩
      · simp only [update_self]
        exact hsession
      · show List.Forall₂ _ (s.relays i) []
        rw [hsilent]
        exact .nil

end Hub

/-! ### The invariant of a protected node -/

namespace Node

open Function

theorem mem_note {α : Type} {history : Nat → List α} {entry : Option (Nat × α)} {j : Nat} {x : α} :
    x ∈ note history entry j ↔ x ∈ history j ∨ entry = some (j, x) := by
  cases entry with
  | none => simp [note]
  | some pair =>
      obtain ⟨i, y⟩ := pair
      by_cases hj : j = i
      · subst hj
        simp [note, eq_comm]
      · have hne : ¬ i = j := fun h => hj h.symm
        simp [note, update_of_ne hj, hne]

theorem subset_note {α : Type} (history : Nat → List α) (entry : Option (Nat × α)) (j : Nat) :
    history j ⊆ note history entry j :=
  fun _ hin => mem_note.mpr (.inl hin)

theorem note_of_ne {α : Type} {history : Nat → List α} {i : Nat} {entry : α} {j : Nat} (hj : j ≠ i) :
    note history (some (i, entry)) j = history j :=
  update_of_ne hj _ _

section Invariant

variable (rt : Runtime) (grp : ModpGroup) (cfg : ServerConfig)

/-- The connection was registered with the session `run_server` returned on it, without compression for
a browser, and that session seals what is relayed to the connection. -/
def Serving (s : Node) (i : Nat) : Prop :=
  ∃ password message handshake later session, cfg.secret = some password ∧
    s.entry i = .read (.ok message) ::
      .wrote (.helloAck "ok" cfg.serverName cfg.passwordRequired) none :: later ∧
    parseMessage rt message = .ok (.hello handshake) ∧
    Program.After (runServer rt grp (s.exponent i) password) later (.done session) ∧
    s.hub.SealsFrom rt i
      (if handshake.status = "browser" then { session with compress := false } else session)

/-- The text of the broadcast was obtained in this run by the session its sender held then, from a sealed
frame the sender's loop has received. -/
def Opened (s : Node) (m : Broadcast) : Prop :=
  ∃ earlier message frame session plaintext sender,
    Run rt grp cfg earlier ∧ Leads rt grp cfg earlier s ∧
    earlier.hub.thread m.sender = .looping ∧
    (earlier.hub.client m.sender).session = some session ∧
    message ∈ s.received m.sender ∧ parseMessage rt message = .ok (.sealed frame) ∧
    (session.open rt frame).1 = .ok plaintext ∧
    decodeMessage rt plaintext = .ok (m.text, sender) ∧
    m.senderName = senderOr sender (earlier.hub.client m.sender).name

/-- What holds of a protected node at any time. -/
structure Guarded (s : Node) : Prop where
  entering : ∀ i program, s.stage i = .entering program →
    Program.After (handleSession rt grp cfg (s.exponent i)) (s.entry i) program
  fresh : ∀ i, s.stage i = .absent → s.entry i = []
  threads : ∀ i, s.hub.thread i ≠ .absent ↔ s.stage i = .inside
  serving : ∀ i, s.stage i = .inside → s.Serving rt grp cfg i
  silent : ∀ i, s.stage i ≠ .inside → s.hub.relays i = []
  nodup : s.hub.registry.Nodup
  registered : ∀ i ∈ s.hub.registry, (s.hub.thread i).Engaged
  audience : ∀ i b todo, (s.hub.thread i).task = some (b, todo) → ∀ r ∈ todo, s.stage r = .inside
  opened : ∀ m ∈ s.hub.broadcasts, s.Opened rt grp cfg m
  handed : ∀ i, ∀ entry ∈ s.handed i, entry.frame.NotChat
  relayed : ∀ i number frame, .relayed number frame ∈ s.handed i → s.stage i = .inside
  written : ∀ i, s.hub.written i ⊆ s.handed i

end Invariant

variable {rt : Runtime} {grp : ModpGroup} {cfg : ServerConfig} {s s' : Node} {event : NodeEvent}

theorem Run.step (h : s.Run rt grp cfg) (hstep : NodeStep rt grp cfg event s s') :
    s'.Run rt grp cfg :=
  h.tail ⟨event, hstep⟩

theorem guarded_start : Node.Guarded rt grp cfg .start where
  entering := nofun
  fresh _ _ := rfl
  threads _ := ⟨fun h => absurd rfl h, nofun⟩
  serving := nofun
  silent _ _ := rfl
  nodup := List.nodup_nil
  registered := nofun
  audience := nofun
  opened := nofun
  handed := nofun
  relayed := nofun
  written _ := List.Subset.refl _

/-- What was opened stays opened. -/
theorem Opened.step {m : Broadcast} (h : s.Opened rt grp cfg m) (hstep : NodeStep rt grp cfg event s s')
    (hreceived : ∀ j, s.received j ⊆ s'.received j) : s'.Opened rt grp cfg m := by
  obtain ⟨earlier, message, frame, session, plaintext, sender, hrun, hleads, hlooping, hsession,
    hmessage, hrest⟩ := h
  exact ⟨earlier, message, frame, session, plaintext, sender, hrun, hleads.tail ⟨event, hstep⟩, hlooping,
    hsession, hreceived _ hmessage, hrest⟩

/-- A step of a handler that is not registered concerns only its own stage and history. -/
theorem Guarded.outside (h : s.Guarded rt grp cfg) (hstep : NodeStep rt grp cfg event s s') {i : Nat}
    {stage : Stage} (hi : s.stage i ≠ .inside) (hstage : s'.stage = update s.stage i stage)
    (hinside : stage ≠ .inside) (habsent : stage ≠ .absent)
    (hprogram : ∀ program, stage = .entering program →
      Program.After (handleSession rt grp cfg (s'.exponent i)) (s'.entry i) program)
    (hhub : s'.hub = s.hub) (hreceived : s'.received = s.received)
    (hentry : ∀ j, j ≠ i → s'.exponent j = s.exponent j ∧ s'.entry j = s.entry j)
    (hkept : ∀ j, s.handed j ⊆ s'.handed j)
    (hhanded : ∀ j, ∀ entry ∈ s'.handed j,
      entry ∈ s.handed j ∨ ∃ frame, entry = .reply frame ∧ frame.NotChat) :
    s'.Guarded rt grp cfg := by
  have hsame : ∀ j, s'.stage j = .inside ↔ s.stage j = .inside := by
    intro j
    rw [hstage]
    by_cases hj : j = i
    · rw [hj, update_self]
      exact ⟨fun h => absurd h hinside, fun h => absurd h hi⟩
    · rw [update_of_ne hj]
  exact {
    entering := by
      intro j program hj
      rw [hstage] at hj
      by_cases hji : j = i
      · rw [hji, update_self] at hj
        rw [hji]
        exact hprogram program hj
      · rw [update_of_ne hji] at hj
        rw [(hentry j hji).1, (hentry j hji).2]
        exact h.entering j program hj
    fresh := by
      intro j hj
      rw [hstage] at hj
      by_cases hji : j = i
      · rw [hji, update_self] at hj
        exact absurd hj habsent
      · rw [update_of_ne hji] at hj
        rw [(hentry j hji).2]
        exact h.fresh j hj
    threads := by
      intro j
      rw [hhub, hsame]
      exact h.threads j
    serving := by
      intro j hj
      have hj' := (hsame j).mp hj
      have hji : j ≠ i := by
        rintro rfl
        exact hi hj'
      obtain ⟨password, message, handshake, later, session, hsecret, hhistory, hrest⟩ := h.serving j hj'
      refine ⟨password, message, handshake, later, session, hsecret, ?_, ?_⟩
      · rw [(hentry j hji).2]
        exact hhistory
      · rw [hhub, (hentry j hji).1]
        exact hrest
    silent := by
      intro j hj
      rw [hhub]
      exact h.silent j fun hin => hj ((hsame j).mpr hin)
    nodup := by
      rw [hhub]
      exact h.nodup
    registered := by
      rw [hhub]
      exact h.registered
    audience := by
      intro j b todo hbusy r hr
      rw [hhub] at hbusy
      exact (hsame r).mpr (h.audience j b todo hbusy r hr)
    opened := by
      intro m hm
      rw [hhub] at hm
      apply (h.opened m hm).step hstep
      rw [hreceived]
      exact fun j => List.Subset.refl _
    handed := by
      intro j entry hin
      rcases hhanded j entry hin with hold | ⟨frame, rfl, hframe⟩
      · exact h.handed j entry hold
      · exact hframe
    relayed := by
      intro j number frame hin
      rcases hhanded j _ hin with hold | ⟨_, hreply, _⟩
      · exact (hsame j).mpr (h.relayed j number frame hold)
      · cases hreply
    written := by
      intro j
      rw [hhub]
      exact List.Subset.trans (h.written j) (hkept j) }

theorem Guarded.inside_of_engaged (h : s.Guarded rt grp cfg) {i : Nat}
    (hi : (s.hub.thread i).Engaged) : s.stage i = .inside :=
  (h.threads i).mp hi.ne_absent

/-- Steps of registered connections: the registry only loses connections, and those that leave their
handler are gone from it. -/
theorem Guarded.moves (h : s.Guarded rt grp cfg) (hstep : NodeStep rt grp cfg event s s')
    (hstage : s'.stage = s.stage) (hexponent : s'.exponent = s.exponent) (hentry : s'.entry = s.entry)
    (hmoves : s.hub.Moves s'.hub)
    (hfrom : ∀ i base, s.hub.SealsFrom rt i base → s'.hub.SealsFrom rt i base)
    (hrelays : ∀ i, s.stage i ≠ .inside → s'.hub.relays i = s.hub.relays i)
    (hreceived : ∀ j, s.received j ⊆ s'.received j)
    (hlog : ∀ m ∈ s'.hub.broadcasts, m ∈ s.hub.broadcasts ∨ s'.Opened rt grp cfg m)
    (hhanded : ∀ j, ∀ entry ∈ s'.handed j,
      entry ∈ s.handed j ∨ entry.frame.NotChat ∧ (entry = .reply entry.frame ∨ s.stage j = .inside))
    (hwritten : ∀ j, s'.hub.written j ⊆ s'.handed j) : s'.Guarded rt grp cfg := {
    entering := by
      rw [hstage, hexponent, hentry]
      exact h.entering
    fresh := by
      rw [hstage, hentry]
      exact h.fresh
    threads := by
      intro i
      rw [hstage, ← h.threads i, Ne, hmoves.absent_iff]
    serving := by
      intro i hi
      rw [hstage] at hi
      obtain ⟨password, message, handshake, later, session, hsecret, hhistory, hparse, hserver, hbase⟩ :=
        h.serving i hi
      refine ⟨password, message, handshake, later, session, hsecret, ?_, hparse, ?_, hfrom i _ hbase⟩
      · rw [hentry]
        exact hhistory
      · rw [hexponent]
        exact hserver
    silent := by
      intro i hi
      rw [hstage] at hi
      rw [hrelays i hi]
      exact h.silent i hi
    nodup := hmoves.nodup h.nodup
    registered := hmoves.registered h.nodup h.registered
    audience := by
      intro i b todo hbusy r hr
      rw [hstage]
      rcases hmoves.audience hbusy hr with hin | ⟨j, b', todo', hbefore, hin⟩
      · exact h.inside_of_engaged (h.registered r hin)
      · exact h.audience j b' todo' hbefore r hin
    opened := by
      intro m hm
      rcases hlog m hm with hold | hnew
      · exact (h.opened m hold).step hstep hreceived
      · exact hnew
    handed := by
      intro j entry hin
      rcases hhanded j entry hin with hold | ⟨hframe, _⟩
      · exact h.handed j entry hold
      · exact hframe
    relayed := by
      intro j number frame hin
      rw [hstage]
      rcases hhanded j _ hin with hold | ⟨_, hreply | hinside⟩
      · exact h.relayed j number frame hold
      · cases hreply
      · exact hinside
    written := hwritten }

/-- A registered connection holds a session. -/
theorem Serving.session {i : Nat} (h : s.Serving rt grp cfg i) :
    ∃ session, (s.hub.client i).session = some session := by
  obtain ⟨_, _, _, _, _, _, _, _, _, session, _, hsession, _⟩ := h
  exact ⟨session, hsession⟩

/-- A thread of the hub takes a step. -/
theorem Guarded.work (h : s.Guarded rt grp cfg) (hrun : s.Run rt grp cfg) {event : HubEvent} {hub : Hub}
    (within : ∀ i client, event ≠ .join i client) (step : HubStep rt event s.hub hub) :
    Node.Guarded rt grp cfg
      { s with
        hub
        received := note s.received (message? event)
        handed := note s.handed (event.offer rt s.hub) } := by
  have hstep : NodeStep rt grp cfg (.work event) s _ := .work within step
  have hreceived : ∀ j, s.received j ⊆ note s.received (message? event) j := subset_note s.received _
  apply h.moves hstep rfl rfl rfl (Hub.step_moves within step)
  · intro i base hbase
    exact hbase.step (within i) step
  · intro i hi
    rcases Hub.step_relays step i with hsame | ⟨k, b, todo, hbusy, hin⟩
    · exact hsame
    · exact absurd (h.audience k b todo hbusy i hin) hi
  · exact hreceived
  · intro m hm
    rcases Hub.step_logs step with hsame | ⟨i, message, text, senderName, rfl, hlooping, hbody, happend⟩
    · rw [hsame] at hm
      exact .inl hm
    · rw [happend] at hm
      rcases List.mem_append.mp hm with hold | hnew
      · exact .inl hold
      · right
        obtain rfl := List.mem_singleton.mp hnew
        have hinside : s.stage i = .inside := by
          apply (h.threads i).mp
          rw [hlooping]
          exact nofun
        obtain ⟨session, hsession⟩ := (h.serving i hinside).session
        obtain ⟨frame, plaintext, sender, hparse, hopen, hdecode, hname⟩ :=
          messageLoopBody_broadcast hsession hbody
        refine ⟨s, message, frame, session, plaintext, sender, hrun, ?_, hlooping, hsession, ?_, hparse,
          hopen, hdecode, hname⟩
        · exact .single ⟨_, hstep⟩
        · exact mem_note.mpr (.inr rfl)
  · intro j entry hin
    rcases mem_note.mp hin with hold | hoffer
    · exact .inl hold
    · right
      rcases Hub.step_offers step hoffer with ⟨frame, message, rfl, hbody⟩ |
        ⟨i, b, todo, text, sender, frame, rfl, hbusy, hin, hdeliver⟩
      · exact ⟨messageLoopBody_reply hbody, .inl rfl⟩
      · have hinside := h.audience i b todo hbusy j hin
        obtain ⟨session, hsession⟩ := (h.serving j hinside).session
        obtain ⟨sealedFrame, _, rfl, _⟩ :=
          RegisteredClient.deliver_eq_ok hsession (Prod.ext hdeliver rfl)
        exact ⟨trivial, .inr hinside⟩
  · intro j entry hin
    rcases Hub.step_written step hin with hold | hoffer
    · exact mem_note.mpr (.inl (h.written j hold))
    · exact mem_note.mpr (.inr hoffer)

/-- The session of a browser is a fresh one that does not compress. -/
theorem browser_session (keys : SessionKeys) (status : String) :
    (if status = "browser" then { SessionState.new keys false true with compress := false }
      else SessionState.new keys false true) = .new keys false (decide (status ≠ "browser")) := by
  by_cases hbrowser : status = "browser"
  · rw [if_pos hbrowser, decide_eq_false (not_not_intro hbrowser)]
    rfl
  · rw [if_neg hbrowser, decide_eq_true hbrowser]

/-- The hub takes the client that a handler has made. -/
theorem Guarded.joins (h : s.Guarded rt grp cfg) {password : Bytes}
    (hsecret : cfg.secret = some password) {i : Nat} {client : RegisteredClient}
    (entering : s.stage i = .entering (.done (some client))) :
    ∃ hub, HubStep rt (.join i client) s.hub hub := by
  obtain ⟨message, handshake, later, session, _, _, hserver, rfl⟩ :=
    handleSession_registers rt grp cfg _ hsecret (h.entering i _ entering)
  obtain ⟨keys, rfl⟩ := (runServer_returns rt grp _ password).after hserver
  have hfree : s.hub.thread i = .absent := by
    by_contra hpresent
    have hinside := (h.threads i).mp hpresent
    rw [entering] at hinside
    cases hinside
  refine ⟨_, .join hfree (.inr ⟨keys, decide (handshake.status ≠ "browser"), ?_⟩)⟩
  rw [authenticatedClient, ← browser_session]
  simp only [decide_eq_true_eq]

/-- A handler registers the client it has made. -/
theorem Guarded.register (h : s.Guarded rt grp cfg) {password : Bytes}
    (hsecret : cfg.secret = some password) {i : Nat} {client : RegisteredClient} {hub : Hub}
    (entering : s.stage i = .entering (.done (some client)))
    (join : HubStep rt (.join i client) s.hub hub) :
    Node.Guarded rt grp cfg { s with hub, stage := update s.stage i .inside } := by
  have hstep : NodeStep rt grp cfg (.register i) s _ := .register entering join
  obtain ⟨message, handshake, later, session, hhistory, hparse, hserver, rfl⟩ :=
    handleSession_registers rt grp cfg _ hsecret (h.entering i _ entering)
  obtain ⟨keys, rfl⟩ := (runServer_returns rt grp _ password).after hserver
  have houtside : s.stage i ≠ .inside := by
    rw [entering]
    exact nofun
  have hothers : ∀ j, s.stage j = .inside → j ≠ i := by
    rintro j hj rfl
    exact houtside hj
  have hstay : ∀ j, s.stage j = .inside → update s.stage i .inside j = .inside := by
    intro j hj
    rw [update_of_ne (hothers j hj)]
    exact hj
  have hbefore : ∀ j stage, stage ≠ .inside → update s.stage i .inside j = stage → s.stage j = stage := by
    intro j stage hstage hj
    by_cases hji : j = i
    · rw [hji, update_self] at hj
      exact absurd hj.symm hstage
    · rw [update_of_ne hji] at hj
      exact hj
  have hsilent : s.hub.relays i = [] := h.silent i houtside
  have hjoin := join
  cases join with
  | join free fresh =>
      exact {
        entering := fun j program hj => h.entering j program (hbefore j _ nofun hj)
        fresh := fun j hj => h.fresh j (hbefore j _ nofun hj)
        threads := by
          intro j
          by_cases hji : j = i
          · simp only [hji, update_self]
            exact ⟨fun _ => trivial, fun _ => nofun⟩
          · simp only [update_of_ne hji]
            exact h.threads j
        serving := by
          intro j hj
          by_cases hji : j = i
          · subst hji
            refine ⟨password, message, handshake, later, _, hsecret, hhistory, hparse, hserver, ?_⟩
            rw [browser_session]
            apply Hub.sealsFrom_join hjoin ?_ hsilent
            rw [authenticatedClient, ← browser_session]
            simp only [decide_eq_true_eq]
          · simp only [update_of_ne hji] at hj
            obtain ⟨password', message', handshake', later', session', hsecret', hhistory', hparse', hserver',
              hbase'⟩ := h.serving j hj
            refine ⟨password', message', handshake', later', session', hsecret', hhistory', hparse', hserver',
              ?_⟩
            apply hbase'.step ?_ hjoin
            intro client heq
            injection heq with hi
            exact hji hi.symm
        silent := fun j hj => h.silent j fun hin => hj (hstay j hin)
        nodup := by
          apply List.nodup_append.mpr
          refine ⟨h.nodup, List.nodup_singleton i, ?_⟩
          intro j hj k hk
          rw [List.mem_singleton.mp hk]
          rintro rfl
          exact (h.registered j hj).ne_absent free
        registered := by
          intro j hj
          by_cases hji : j = i
          · simp only [hji, update_self]
            exact .inl trivial
          · simp only [update_of_ne hji]
            rcases List.mem_append.mp hj with hold | hsingle
            · exact h.registered j hold
            · exact absurd (List.mem_singleton.mp hsingle) hji
        audience := by
          intro j b' todo hbusy r hr
          apply hstay
          by_cases hji : j = i
          · simp only [hji, update_self] at hbusy
            cases hbusy
          · simp only [update_of_ne hji] at hbusy
            exact h.audience j b' todo hbusy r hr
        opened := by
          intro m hm
          exact (h.opened m hm).step hstep fun j => List.Subset.refl _
        handed := h.handed
        relayed := by
          intro j number frame hin
          exact hstay j (h.relayed j number frame hin)
        written := h.written }

/-- Every step keeps a protected node guarded. -/
theorem Guarded.step {password : Bytes} (hsecret : cfg.secret = some password)
    (hrun : s.Run rt grp cfg) (h : s.Guarded rt grp cfg) (hstep : NodeStep rt grp cfg event s s') :
    s'.Guarded rt grp cfg := by
  have hwhole := hstep
  cases hstep with
  | @connect _ i b free =>
      have hi : s.stage i ≠ .inside := by
        rw [free]
        exact nofun
      apply h.outside hwhole hi rfl nofun nofun ?_ rfl rfl
        (fun _ hj => ⟨update_of_ne hj _ _, rfl⟩) (fun _ => List.Subset.refl _) (fun _ _ hin => .inl hin)
      intro program hprogram
      obtain rfl := Stage.entering.inj hprogram
      have hnothing : s.entry i = [] := h.fresh i free
      simp only [hnothing, update_self]
      exact .nil
  | @write _ i message answer next entering =>
      have hi : s.stage i ≠ .inside := by
        rw [entering]
        exact nofun
      have hafter := h.entering i _ entering
      apply h.outside hwhole hi rfl nofun nofun ?_ rfl rfl
        (fun _ hj => ⟨rfl, note_of_ne hj⟩)
        (subset_note s.handed (some (i, .reply message))) ?_
      · intro program hprogram
        obtain rfl := Stage.entering.inj hprogram
        simp only [note, update_self]
        exact hafter.snoc_wrote
      · intro j entry hin
        have hnote : entry ∈ note s.handed (some (i, .reply message)) j := hin
        rcases mem_note.mp hnote with hold | hnew
        · exact .inl hold
        · obtain ⟨_, rfl⟩ := Prod.mk.inj (Option.some.inj hnew)
          have hwrites := (handleSession_writes rt grp cfg _).after hafter
          exact .inr ⟨message, rfl, hwrites.1⟩
  | @read _ i input next entering =>
      have hi : s.stage i ≠ .inside := by
        rw [entering]
        exact nofun
      have hafter := h.entering i _ entering
      apply h.outside hwhole hi rfl nofun nofun ?_ rfl rfl
        (fun _ hj => ⟨rfl, note_of_ne hj⟩)
        (fun _ => List.Subset.refl _) (fun _ _ hin => .inl hin)
      intro program hprogram
      obtain rfl := Stage.entering.inj hprogram
      simp only [note, update_self]
      exact hafter.snoc_read
  | register entering join => exact h.register hsecret entering join
  | @refuse _ i entering =>
      have hi : s.stage i ≠ .inside := by
        rw [entering]
        exact nofun
      exact h.outside hwhole hi rfl nofun nofun nofun rfl rfl
        (fun _ _ => ⟨rfl, rfl⟩) (fun _ => List.Subset.refl _) (fun _ _ hin => .inl hin)
  | work within step => exact h.work hrun within step
  | @interruptEntry _ i exn program entering =>
      have hi : s.stage i ≠ .inside := by
        rw [entering]
        exact nofun
      exact h.outside hwhole hi rfl nofun nofun nofun rfl rfl
        (fun _ _ => ⟨rfl, rfl⟩) (fun _ => List.Subset.refl _) (fun _ _ hin => .inl hin)
  | @interruptLoop _ i exn running =>
      apply h.moves hwhole rfl rfl rfl
      · exact Hub.moves_idle rfl (.inl running) (.inr ⟨_, rfl⟩) rfl (List.Sublist.refl _)
      · exact fun _ _ hbase => hbase
      · exact fun _ _ => rfl
      · exact fun j => List.Subset.refl _
      · exact fun m hm => .inl hm
      · exact fun j entry hin => .inl hin
      · exact h.written

/-- Every run keeps a protected node guarded. -/
theorem Run.guarded {password : Bytes} (hsecret : cfg.secret = some password)
    (h : s.Run rt grp cfg) : s.Guarded rt grp cfg := by
  induction h with
  | refl => exact guarded_start
  | tail hrun hlast ih =>
      obtain ⟨event, hstep⟩ := hlast
      exact ih.step hsecret hrun hstep

/-- A registered connection has completed the handshake, and its session is the one `run_server` returned
there. -/
theorem Guarded.returned (h : s.Guarded rt grp cfg) {i : Nat} (hi : s.stage i = .inside) :
    ∃ session state, s.Returned rt grp cfg i session ∧ (s.hub.client i).session = some state ∧
      session.Continues state := by
  obtain ⟨password, message, handshake, later, session, hsecret, hhistory, _, hserver, state, sent, hstate,
    hsends, _⟩ := h.serving i hi
  refine ⟨session, state, ⟨password, message, later, hsecret, hhistory, hserver.returned⟩, hstate, ?_⟩
  have hsame : state = _ := hsends.session
  by_cases hbrowser : handshake.status = "browser"
  · rw [if_pos hbrowser] at hsame
    constructor
    · right
      rw [hsame]
    · rw [hsame]
  · rw [if_neg hbrowser] at hsame
    constructor
    · left
      rw [hsame]
    · rw [hsame]

/-- The history before the registration is only written before the registration. -/
theorem entry_of_inside (hstep : NodeStep rt grp cfg event s s') {i : Nat} (hi : s.stage i = .inside) :
    s'.stage i = .inside ∧ s'.exponent i = s.exponent i ∧ s'.entry i = s.entry i := by
  have hne : ∀ {j : Nat} {stage : Stage}, s.stage j = stage → stage ≠ .inside → i ≠ j := by
    rintro j stage hj hstage rfl
    exact hstage (hj.symm.trans hi)
  cases hstep with
  | connect free =>
      have hother := hne free nofun
      exact ⟨(update_of_ne hother _ _).trans hi, update_of_ne hother _ _, rfl⟩
  | write entering =>
      have hother := hne entering nofun
      exact ⟨(update_of_ne hother _ _).trans hi, rfl, note_of_ne hother⟩
  | read entering =>
      have hother := hne entering nofun
      exact ⟨(update_of_ne hother _ _).trans hi, rfl, note_of_ne hother⟩
  | register entering join => exact ⟨(update_of_ne (hne entering nofun) _ _).trans hi, rfl, rfl⟩
  | refuse entering => exact ⟨(update_of_ne (hne entering nofun) _ _).trans hi, rfl, rfl⟩
  | work within step => exact ⟨hi, rfl, rfl⟩
  | interruptEntry entering => exact ⟨(update_of_ne (hne entering nofun) _ _).trans hi, rfl, rfl⟩
  | interruptLoop running => exact ⟨hi, rfl, rfl⟩

theorem Leads.entry_of_inside (h : Leads rt grp cfg s s') {i : Nat} (hi : s.stage i = .inside) :
    s'.stage i = .inside ∧ s'.exponent i = s.exponent i ∧ s'.entry i = s.entry i := by
  induction h with
  | refl => exact ⟨hi, rfl, rfl⟩
  | tail _ hlast ih =>
      obtain ⟨event, hstep⟩ := hlast
      obtain ⟨hinside, hexponent, hentry⟩ := Node.entry_of_inside hstep ih.1
      exact ⟨hinside, hexponent.trans ih.2.1, hentry.trans ih.2.2⟩

/-- A session that was returned stays the one that was returned. -/
theorem Returned.of_entry {i : Nat} {session : SessionState} (h : s.Returned rt grp cfg i session)
    (hsame : s'.exponent i = s.exponent i ∧ s'.entry i = s.entry i) :
    s'.Returned rt grp cfg i session := by
  obtain ⟨password, hello, exchanges, hsecret, hhistory, hserver⟩ := h
  refine ⟨password, hello, exchanges, hsecret, hsame.2.trans hhistory, ?_⟩
  rw [hsame.1]
  exact hserver

/-- A text that was broadcast was opened by the session `run_server` returned on the sender's
connection. -/
theorem Opened.returned {m : Broadcast} (h : s.Opened rt grp cfg m) {password : Bytes}
    (hsecret : cfg.secret = some password) :
    ∃ session state message frame plaintext sender, s.Returned rt grp cfg m.sender session ∧
      session.Continues state ∧ message ∈ s.received m.sender ∧
      parseMessage rt message = .ok (.sealed frame) ∧ (state.open rt frame).1 = .ok plaintext ∧
      decodeMessage rt plaintext = .ok (m.text, sender) := by
  obtain ⟨earlier, message, frame, state, plaintext, sender, hrun, hleads, hlooping, hstate, hmessage,
    hparse, hopen, hdecode, _⟩ := h
  have hguarded := hrun.guarded hsecret
  have hinside : earlier.stage m.sender = .inside := by
    apply (hguarded.threads m.sender).mp
    rw [hlooping]
    exact nofun
  obtain ⟨session, state', hreturned, hstate', hcontinues⟩ := hguarded.returned hinside
  obtain rfl := Option.some.inj (hstate.symm.trans hstate')
  exact ⟨session, state, message, frame, plaintext, sender,
    hreturned.of_entry (hleads.entry_of_inside hinside).2, hcontinues, hmessage, hparse, hopen, hdecode⟩

end Node

/-! ### A connection that authenticates -/

section Authenticates

variable {rt : Runtime} {grp : ModpGroup} {cfg : ServerConfig} {b : Nat} {password commit : Bytes}
variable {hello message message' : WsMessage} {handshake : Handshake} {publicA : grp.Element}

theorem recvFrame_after {frame : Frame} (h : parseMessage rt message = .ok frame) :
    Program.After (recvFrame rt) [.read (.ok message)] (.done frame) := by
  have hlift : Program.After (Program.lift (parseMessage rt message) : Driver Frame) [] (.done frame) := by
    rw [h]
    exact .nil
  have hawait : Program.After (Program.await : Driver WsMessage) [.read (.ok message)] (.done message) :=
    .read .nil
  exact hawait.bind hlift

theorem emit_after (frame : Frame) :
    Program.After (Program.emit frame : Driver Unit) [.wrote frame none] (.done ()) :=
  .wrote .nil

/-- The exchanges of the server with a client that knows the password. -/
theorem runServer_after (b : Nat) (password : Bytes) (h : ReadsCommit rt message commit)
    (h' : ReadsConfirm rt grp commit message' publicA (expectedConfirm rt grp b commit publicA)) :
    ∃ exchanges, Program.After (runServer rt grp b password) exchanges
      (.done (sessionOf rt grp (sharedSecret grp publicA b) false)) := by
  obtain ⟨text, hparse, hbytes, hlength⟩ := h
  obtain ⟨text', hparse', hA, hcommit⟩ := h'
  have hconfirm : Program.After (serverOnConfirm rt grp b commit
      (.covenantConfirm text' (expectedConfirm rt grp b commit publicA)))
      [.wrote (authOkFrame rt grp b commit publicA) none]
      (.done (sessionOf rt grp (sharedSecret grp publicA b) false)) := by
    rw [serverOnConfirm_ok hA hcommit]
    exact (emit_after _).bind .nil
  have hcommitted : Program.After (serverOnCommit rt grp b password (.covenantCommit text))
      [.wrote (challengeFrame rt grp b password) none, .read (.ok message'),
        .wrote (authOkFrame rt grp b commit publicA) none]
      (.done (sessionOf rt grp (sharedSecret grp publicA b) false)) := by
    rw [serverOnCommit_ok hbytes hlength, serverChallenges]
    exact (emit_after _).bind ((recvFrame_after hparse').bind hconfirm)
  exact ⟨_, (recvFrame_after hparse).bind hcommitted⟩

/-- The handler makes a client for a peer that greets it and knows the password. -/
theorem handleSession_after (hsecret : cfg.secret = some password)
    (hhello : parseMessage rt hello = .ok (.hello handshake)) {exchanges : List (Exchange WsMessage Frame Exn)}
    {session : SessionState}
    (hserver : Program.After (runServer rt grp b password) exchanges (.done session)) :
    Program.After (handleSession rt grp cfg b)
      (.read (.ok hello) :: .wrote (.helloAck "ok" cfg.serverName cfg.passwordRequired) none :: exchanges)
      (.done (some (authenticatedClient s!"user{handshake.userId}" (handshake.status = "browser")
        session))) := by
  have hsome : Program.After (do return some (← runServer rt grp b password)) (exchanges ++ [])
      (.done (some session)) := hserver.bind .nil
  have hauthenticate : Program.After (authenticate rt grp b password) (exchanges ++ [])
      (.done (some session)) := hsome.handle _
  have hwhole : Program.After (handleSession rt grp cfg b)
      ([.read (.ok hello)] ++ ([.wrote (.helloAck "ok" cfg.serverName cfg.passwordRequired) none] ++
        (exchanges ++ [] ++ [])))
      (.done (some (authenticatedClient s!"user{handshake.userId}" (handshake.status = "browser")
        session))) := by
    refine (recvFrame_after hhello).bind ((emit_after _).bind ?_)
    simp only [hsecret]
    exact hauthenticate.bind .nil
  rw [List.append_nil, List.append_nil] at hwhole
  exact hwhole

namespace Node

open Function

/-- A handler goes through any exchanges it can take part in, and nothing else changes. -/
theorem Run.enters {s : Node} {i : Nat} {program rest : Driver (Option RegisteredClient)}
    {exchanges : List (Exchange WsMessage Frame Exn)} (hrun : s.Run rt grp cfg)
    (hstage : s.stage i = .entering program) (hafter : Program.After program exchanges rest) :
    ∃ s' : Node, s'.Run rt grp cfg ∧ s'.stage i = .entering rest ∧ s'.entry i = s.entry i ++ exchanges ∧
      s'.exponent = s.exponent ∧ s'.hub = s.hub ∧
      ∀ j, j ≠ i → s'.stage j = s.stage j ∧ s'.entry j = s.entry j := by
  induction hafter generalizing s with
  | nil =>
      refine ⟨s, hrun, hstage, ?_, rfl, rfl, fun _ _ => ⟨rfl, rfl⟩⟩
      rw [List.append_nil]
  | @wrote message next answer exchanges rest later ih =>
      have hstep : NodeStep rt grp cfg (.exchange i (.wrote message answer)) s _ := .write hstage
      obtain ⟨s', hrun', hstage', hentry, hexponent, hhub, hothers⟩ :=
        ih (hrun.step hstep) (update_self i (.entering (next answer)) s.stage)
      refine ⟨s', hrun', hstage', ?_, hexponent, hhub, ?_⟩
      · rw [hentry]
        simp only [note, update_self, List.append_assoc, List.singleton_append]
      · intro j hj
        rw [(hothers j hj).1, (hothers j hj).2]
        exact ⟨update_of_ne hj _ _, note_of_ne hj⟩
  | @read next input exchanges rest later ih =>
      have hstep : NodeStep rt grp cfg (.exchange i (.read input)) s _ := .read hstage
      obtain ⟨s', hrun', hstage', hentry, hexponent, hhub, hothers⟩ :=
        ih (hrun.step hstep) (update_self i (.entering (next input)) s.stage)
      refine ⟨s', hrun', hstage', ?_, hexponent, hhub, ?_⟩
      · rw [hentry]
        simp only [note, update_self, List.append_assoc, List.singleton_append]
      · intro j hj
        rw [(hothers j hj).1, (hothers j hj).2]
        exact ⟨update_of_ne hj _ _, note_of_ne hj⟩

/-- A peer that greets a node and knows the password can be registered, and nothing else changes. -/
theorem exists_registered (hsecret : cfg.secret = some password)
    (hhello : parseMessage rt hello = .ok (.hello handshake)) (h : ReadsCommit rt message commit)
    (h' : ReadsConfirm rt grp commit message' publicA (expectedConfirm rt grp b commit publicA))
    {s : Node} (hrun : s.Run rt grp cfg) {i : Nat} (hfree : s.stage i = .absent) :
    ∃ s' : Node, s'.Run rt grp cfg ∧ s'.stage i = .inside ∧ s'.Greeted rt i handshake ∧
      s'.Returned rt grp cfg i (sessionOf rt grp (sharedSecret grp publicA b) false) ∧
      s'.hub = { s.hub with
        client := update s.hub.client i (authenticatedClient s!"user{handshake.userId}"
          (handshake.status = "browser") (sessionOf rt grp (sharedSecret grp publicA b) false))
        thread := update s.hub.thread i .looping
        registry := s.hub.registry ++ [i] } ∧
      ∀ j, j ≠ i →
        s'.stage j = s.stage j ∧ s'.exponent j = s.exponent j ∧ s'.entry j = s.entry j := by
  obtain ⟨exchanges, hserver⟩ := runServer_after b password h h'
  have hafter := handleSession_after hsecret hhello hserver
  have hconnect : NodeStep rt grp cfg (.connect i b) s _ := .connect hfree
  have hconnected := hrun.step hconnect
  obtain ⟨s', hrun', hstage', hentry, hexponent, hhub, hothers⟩ :=
    Run.enters hconnected (update_self i _ s.stage) hafter
  have hnothing : s.entry i = [] := (hrun.guarded hsecret).fresh i hfree
  rw [hnothing, List.nil_append] at hentry
  obtain ⟨hub, hjoin⟩ := (hrun'.guarded hsecret).joins hsecret hstage'
  have hregister : NodeStep rt grp cfg (.register i) s' _ := .register hstage' hjoin
  cases hjoin with
  | join free fresh =>
      refine ⟨_, hrun'.step hregister, update_self i _ _, ⟨hello, _, hentry, hhello⟩, ?_, ?_, ?_⟩
      · refine ⟨password, hello, exchanges, hsecret, hentry, ?_⟩
        have hdrawn : s'.exponent i = b := by
          rw [hexponent]
          exact update_self i b s.exponent
        simp only [hdrawn]
        exact hserver.returned
      · rw [← hhub]
      · intro j hj
        rw [hexponent]
        exact ⟨(update_of_ne hj _ _).trans ((hothers j hj).1.trans (update_of_ne hj _ _)),
          update_of_ne hj _ _, (hothers j hj).2⟩

end Node

end Authenticates

/-- A node with a password. -/
def sampleConfig : ServerConfig := { serverName := "priestly", password := some "alpha" }

/-- The HELLO of a client with a status. -/
def sampleHello (status : String) : Handshake :=
  { id := 1, userId := 7, deviceId := 1, timestamp := "", status }

/-- The session of the sample handshake. -/
def sampleSession : SessionState :=
  sessionOf (sampleRuntime hmacSha256) group23 (sharedSecret group23 (publicElement group23 3) 4) false

open Function in
/-- A client that knows the password can be registered over the group modulo 23. -/
theorem exists_registered_sample (status : String) {s : Node}
    (hrun : s.Run (sampleRuntime hmacSha256) group23 sampleConfig) {i : Nat}
    (hfree : s.stage i = .absent) :
    ∃ s' : Node, s'.Run (sampleRuntime hmacSha256) group23 sampleConfig ∧ s'.stage i = .inside ∧
      s'.Greeted (sampleRuntime hmacSha256) i (sampleHello status) ∧
      s'.Returned (sampleRuntime hmacSha256) group23 sampleConfig i sampleSession ∧
      s'.hub = { s.hub with
        client := update s.hub.client i
          (authenticatedClient s!"user{(7 : Int)}" (status = "browser") sampleSession)
        thread := update s.hub.thread i .looping
        registry := s.hub.registry ++ [i] } ∧
      ∀ j, j ≠ i →
        s'.stage j = s.stage j ∧ s'.exponent j = s.exponent j ∧ s'.entry j = s.entry j := by
  have hparse : ∀ frame : Frame, frame.Sampled →
      parseMessage (sampleRuntime hmacSha256) (wire (sampleRuntime hmacSha256) frame) = .ok frame :=
    fun frame hframe => loads_dumps_sample hmacSha256 hframe
  have hcommit : ReadsCommit (sampleRuntime hmacSha256)
      (wire (sampleRuntime hmacSha256) (commitFrame group23 3))
      (commitDigest group23 (publicElement group23 3)) := by
    refine ⟨_, hparse _ rfl, ?_, length_commitDigest group23 _⟩
    rw [toList_hexString, bytesFromHex_hexChars]
  have hA : parseElement (sampleRuntime hmacSha256) group23
      (elementHex group23 (publicElement group23 3)) = .ok (publicElement group23 3) := by
    decide +kernel
  have hconfirm : ReadsConfirm (sampleRuntime hmacSha256) group23
      (commitDigest group23 (publicElement group23 3))
      (wire (sampleRuntime hmacSha256) (.covenantConfirm (elementHex group23 (publicElement group23 3))
        (expectedConfirm (sampleRuntime hmacSha256) group23 4
          (commitDigest group23 (publicElement group23 3)) (publicElement group23 3))))
      (publicElement group23 3)
      (expectedConfirm (sampleRuntime hmacSha256) group23 4
        (commitDigest group23 (publicElement group23 3)) (publicElement group23 3)) :=
    ⟨_, hparse _ rfl, hA, rfl⟩
  have hsecret : sampleConfig.secret = some (utf8Encode "alpha") := rfl
  exact Node.exists_registered hsecret (hparse (.hello (sampleHello status)) rfl) hcommit hconfirm hrun hfree

/-! ### The gate -/

/-- The gate of a protected node: in every run, registered clients are inside their handler and hold the
session `run_server` returned on their connection; every text that is broadcast was opened by that
session of its sender from a sealed frame received there; no chat frame is handed to a socket; and only
connections that completed the handshake are handed relayed messages. -/
theorem protected_node (rt : Runtime) (grp : ModpGroup) (cfg : ServerConfig)
    (hprotected : cfg.passwordRequired = true) {s : Node} (hrun : s.Run rt grp cfg) :
    (∀ i ∈ s.hub.registry, s.Inside i ∧
      ∃ session state, s.Returned rt grp cfg i session ∧ (s.hub.client i).session = some state ∧
        session.Continues state) ∧
    (∀ m ∈ s.hub.broadcasts, s.Opened rt grp cfg m ∧
      ∃ session state message frame plaintext sender, s.Returned rt grp cfg m.sender session ∧
        session.Continues state ∧ message ∈ s.received m.sender ∧
        parseMessage rt message = .ok (.sealed frame) ∧ (state.open rt frame).1 = .ok plaintext ∧
        decodeMessage rt plaintext = .ok (m.text, sender)) ∧
    (∀ i, s.hub.written i ⊆ s.handed i ∧ ∀ entry ∈ s.handed i, entry.frame.NotChat) ∧
    (∀ i number frame, .relayed number frame ∈ s.handed i →
      ∃ session, s.Returned rt grp cfg i session) := by
  obtain ⟨password, hsecret⟩ := cfg.exists_secret hprotected
  have hguarded := hrun.guarded hsecret
  refine ⟨?_, ?_, fun i => ⟨hguarded.written i, hguarded.handed i⟩, ?_⟩
  · intro i hi
    have hgoing := hguarded.registered i hi
    have hinside := hguarded.inside_of_engaged hgoing
    exact ⟨⟨hinside, hgoing⟩, hguarded.returned hinside⟩
  · intro m hm
    have hopened := hguarded.opened m hm
    exact ⟨hopened, hopened.returned hsecret⟩
  · intro i number frame hin
    obtain ⟨session, _, hreturned, _⟩ := hguarded.returned (hguarded.relayed i number frame hin)
    exact ⟨session, hreturned⟩

/-- A client is registered on a node with a password and sends a message. -/
theorem protected_node_hi : ∃ (s : Node) (m : Broadcast),
    s.Run (sampleRuntime hmacSha256) group23 sampleConfig ∧ s.hub.registry = [0] ∧
      m ∈ s.hub.broadcasts ∧ m.text = "hi" ∧ s.Inside 0 ∧
      s.Opened (sampleRuntime hmacSha256) group23 sampleConfig m ∧
      (∃ session, s.Returned (sampleRuntime hmacSha256) group23 sampleConfig 0 session) ∧
      ∀ entry ∈ s.handed 0, entry.frame.NotChat := by
  obtain ⟨s, hrun, _, _, _, hhub, _⟩ :=
    exists_registered_sample "init" Relation.ReflTransGen.refl (rfl : Node.start.stage 0 = .absent)
  have hregistry : s.hub.registry = [0] := by
    rw [hhub]
    rfl
  have hthread : s.hub.thread 0 = .looping := by
    rw [hhub]
    rfl
  have hsession : (s.hub.client 0).session = some (.new (sessionKeys group23 hmacSha256
      (sharedSecret group23 (publicElement group23 3) 4)) false true) := by
    rw [hhub]
    rfl
  obtain ⟨message, client, hbody⟩ := exists_broadcast_message
    (jsonRoundTrip_sample hmacSha256) (fun frame => loads_dumps_sample hmacSha256 rfl) hsession
    "hi" "ann"
  have hsnapshot : [].Perm (s.hub.registry.filter fun j => decide (j ≠ 0)) := by
    rw [hregistry]
    exact List.Perm.refl _
  have hstep : NodeStep (sampleRuntime hmacSha256) group23 sampleConfig
      (.work (.receive 0 message)) s _ :=
    .work (fun _ _ => nofun) (.broadcast hthread hbody hsnapshot)
  obtain ⟨hregistered, hbroadcast, hhanded, _⟩ :=
    protected_node (sampleRuntime hmacSha256) group23 sampleConfig rfl (hrun.step hstep)
  have hlogged := List.mem_append_right s.hub.broadcasts (List.mem_singleton_self
    ({ sender := 0, text := "hi", senderName := senderOr "ann" (s.hub.client 0).name,
       registered := s.hub.registry } : Broadcast))
  obtain ⟨hinside, session, _, hreturned, _⟩ := hregistered 0 (hregistry ▸ List.mem_singleton_self 0)
  exact ⟨_, _, hrun.step hstep, hregistry, hlogged, rfl, hinside, (hbroadcast _ hlogged).1,
    ⟨session, hreturned⟩, (hhanded 0).2⟩

end Priestly
