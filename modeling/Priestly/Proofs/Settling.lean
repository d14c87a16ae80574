/-
Module: Priestly.Proofs.Settling
Layer: Proofs
Purpose: The threads of the chat server do not wait for each other in a circle. Once no more comes in, they come
  to rest under every schedule, whatever sockets have failed; a socket that neither takes bytes nor fails
  holds up the threads that write to it or wait for its lock, and no others.
Imports: Priestly.Lib.Refinement, Priestly.Proofs.Interleaving
Trusted boundary: none
Main exports: Sockets.Proceeds, Sockets.HeldUp, Sockets.Settled, threads_settle
-/
import Priestly.Lib.Refinement
import Priestly.Proofs.Interleaving

namespace Priestly

open ByteCodec Interaction

namespace Worker

/-- How far the thread is from rest: first the steps that are left of what it is doing, each recipient
counting for three, and then the bytes of the frame it is writing. -/
def rank : Worker → Nat × Nat
  | .absent | .handshaking | .looping | .ended => (0, 0)
  | .answering _ _ rest => (2, rest.length)
  | .broadcasting relay => (3 * relay.todo.length + 2, 0)
  | .delivering _ _ rest relay => (3 * relay.todo.length + 4, rest.length)
  | .dropping _ relay => (3 * relay.todo.length + 3, 0)
  | .leaving => (1, 0)

/-- The thread waits for its client, or there is none. -/
def AtRest : Worker → Prop
  | .absent | .handshaking | .looping | .ended => True
  | _ => False

/-- The order of the ranks. -/
def Lower : Nat × Nat → Nat × Nat → Prop := Prod.Lex (· < ·) (· < ·)

theorem wellFounded_lower : WellFounded Lower := WellFounded.prod_lex Nat.lt_wfRel.wf Nat.lt_wfRel.wf

/-- Fewer steps are left. -/
theorem lower_of_steps {before after : Worker} (h : after.rank.1 < before.rank.1) :
    Lower after.rank before.rank := Prod.Lex.left _ _ h

/-- As many steps are left, and fewer bytes. -/
theorem lower_of_bytes {before after : Worker} (hsteps : after.rank.1 = before.rank.1)
    (hbytes : after.rank.2 < before.rank.2) : Lower after.rank before.rank := by
  rw [Lower, Prod.lex_def]
  exact .inr ⟨hsteps, hbytes⟩

@[simp] theorem rank_idle (joined : Bool) : (idle joined).rank = (0, 0) := by
  cases joined <;> rfl

end Worker

namespace Sockets

open Function

variable {rt : Runtime} {s s' : Sockets} {i : Nat} {worker : Worker} {stalled : Nat → Prop}

/-! ### What goes on when nothing comes in -/

/-- The event is the next step of a thread that has something to do, and no write to a stalled socket. -/
def Proceeds (stalled : Nat → Prop) (s : Sockets) : SocketEvent → Prop
  | .write i _ =>
      match s.worker i with
      | .answering _ _ _ => ¬ stalled i
      | .delivering r _ _ _ => ¬ stalled r
      | _ => True
  | .acquire _ _ | .sent _ | .writeFails _ | .drop _ | .finish _ | .leave _ => True
  | _ => False

/-- A step that a thread takes by itself. -/
def Advance (rt : Runtime) (stalled : Nat → Prop) (s s' : Sockets) : Prop :=
  ∃ event, s.Proceeds stalled event ∧ SocketStep rt event s s'

/-- The socket neither takes bytes nor fails. -/
def Blocked (stalled : Nat → Prop) (s : Sockets) (r : Nat) : Prop := stalled r ∧ s.broken r = false

/-- The thread has bytes left for a blocked socket. -/
def WritesTo (s : Sockets) (i r : Nat) : Prop :=
  (∃ joined written rest, i = r ∧ s.worker i = .answering joined written rest ∧ rest ≠ []) ∨
    ∃ written rest relay, s.worker i = .delivering r written rest relay ∧ rest ≠ []

/-- The thread has bytes left for a blocked socket, or waits for the lock of one that another thread has bytes
left for. -/
def HeldUp (stalled : Nat → Prop) (s : Sockets) (i : Nat) : Prop :=
  ∃ r, s.Blocked stalled r ∧
    (s.WritesTo i r ∨
      ∃ text senderName todo j, s.worker i = .broadcasting { text, senderName, todo := r :: todo } ∧
        s.lock r = some j ∧ s.WritesTo j r)

/-- Every thread is at rest or held up, and only the locks of blocked sockets are held. -/
structure Settled (stalled : Nat → Prop) (s : Sockets) : Prop where
  threads : ∀ i, (s.worker i).AtRest ∨ s.HeldUp stalled i
  locks : ∀ r j, s.lock r = some j → s.Blocked stalled r ∧ s.WritesTo j r

/-! ### Who holds a lock -/

/-- Who holds a lock delivers to its client. -/
def Held (s : Sockets) : Prop := ∀ i r, s.lock r = some i → (s.worker i).holds = some r

/-- A thread that had no lock moves. -/
theorem Held.frame (h : s.Held) (hworker : s'.worker = update s.worker i worker) (hlock : s'.lock = s.lock)
    (hholds : (s.worker i).holds = none ∨ worker.holds = (s.worker i).holds) : s'.Held := by
  intro j r hj
  rw [hlock] at hj
  have hbefore := h j r hj
  rw [hworker]
  by_cases hji : j = i
  · rw [hji, update_self]
    rw [hji] at hbefore
    rcases hholds with hnone | hsame
    · rw [hnone] at hbefore
      cases hbefore
    · rw [hsame, hbefore]
  · rw [update_of_ne hji]
    exact hbefore

/-- A thread takes a lock. -/
theorem Held.acquire (h : s.Held) {r : Nat} (hnone : (s.worker i).holds = none)
    (hholds : worker.holds = some r) (hworker : s'.worker = update s.worker i worker)
    (hlock : s'.lock = update s.lock r (some i)) : s'.Held := by
  intro j r' hj
  rw [hlock] at hj
  rw [hworker]
  by_cases hr : r' = r
  · rw [hr, update_self] at hj
    obtain rfl := Option.some.inj hj
    rw [update_self, hholds, hr]
  · rw [update_of_ne hr] at hj
    have hbefore := h j r' hj
    have hji : j ≠ i := by
      rintro rfl
      rw [hnone] at hbefore
      cases hbefore
    rw [update_of_ne hji]
    exact hbefore

/-- A thread releases its lock. -/
theorem Held.release (h : s.Held) {r : Nat} (hold : (s.worker i).holds = some r)
    (hworker : s'.worker = update s.worker i worker) (hlock : s'.lock = update s.lock r none) : s'.Held := by
  intro j r' hj
  rw [hlock] at hj
  rw [hworker]
  by_cases hr : r' = r
  · rw [hr, update_self] at hj
    cases hj
  · rw [update_of_ne hr] at hj
    have hbefore := h j r' hj
    have hji : j ≠ i := by
      rintro rfl
      exact hr (Option.some.inj (hbefore.symm.trans hold))
    rw [update_of_ne hji]
    exact hbefore

/-- Every step keeps the locks with those who deliver. -/
theorem Held.step (h : s.Held) {event : SocketEvent} (hstep : SocketStep rt event s s') : s'.Held := by
  cases hstep with
  | acquire busy free frames out => exact h.acquire (congrArg Worker.holds busy) rfl rfl rfl
  | sentRelayed busy => exact h.release (congrArg Worker.holds busy) rfl rfl
  | relayFails busy failed => exact h.release (congrArg Worker.holds busy) rfl rfl
  | writeRelayed busy nonempty healthy => exact h.frame rfl rfl (.inr (congrArg Worker.holds busy).symm)
  | accept free => exact h.frame rfl rfl (.inl (congrArg Worker.holds free))
  | ping reading short out =>
      exact h.frame rfl rfl (.inl ((congrArg Worker.holds reading).trans (Worker.holds_idle _)))
  | close reading =>
      exact h.frame rfl rfl (.inl ((congrArg Worker.holds reading).trans (Worker.holds_idle _)))
  | receiveFails reading =>
      exact h.frame rfl rfl (.inl ((congrArg Worker.holds reading).trans (Worker.holds_idle _)))
  | greet held _ | join held _ | reply held _ _ | replyFails held _ _ | crash held _ | broadcast held _ _
  | acquireFails held _ _ _ | writeAnswer held _ _ | sentAnswer held | answerFails held _ | drop held
  | finish held | leave held => exact h.frame rfl rfl (.inl (congrArg Worker.holds held))
  | breaks => exact h

/-- In every run the locks are with those who deliver. -/
theorem Run.held {allowed : Sockets → SocketEvent → Prop} (h : Run rt allowed s) : s.Held := by
  induction h with
  | start =>
      intro i r hr
      cases hr
  | step _ _ hstep ih => exact ih.step hstep

/-! ### Finitely many threads -/

/-- The threads from a number on have not started. -/
def Unstarted (s : Sockets) (count : Nat) : Prop := ∀ i, count ≤ i → s.worker i = .absent

/-- A step moves at most one thread. -/
theorem exists_moved {event : SocketEvent} (hstep : SocketStep rt event s s') :
    ∃ i worker, s'.worker = update s.worker i worker := by
  cases hstep with
  | @breaks _ i => exact ⟨i, s.worker i, (update_eq_self i s.worker).symm⟩
  | _ => exact ⟨_, _, rfl⟩

/-- In every run only finitely many threads have started. -/
theorem Run.exists_unstarted {allowed : Sockets → SocketEvent → Prop} (h : Run rt allowed s) :
    ∃ count, s.Unstarted count := by
  induction h with
  | start => exact ⟨0, fun _ _ => rfl⟩
  | step _ _ hstep ih =>
      obtain ⟨count, hcount⟩ := ih
      obtain ⟨i, worker, hworker⟩ := exists_moved hstep
      refine ⟨max count (i + 1), fun j hj => ?_⟩
      rw [hworker, update_of_ne (by omega)]
      exact hcount j (by omega)

/-! ### Progress -/

/-- `deliver` takes a free lock, whatever comes of it. -/
theorem exists_acquire {r : Nat} {text senderName : String} {todo : List Nat}
    (busy : s.worker i = .broadcasting { text, senderName, todo := r :: todo }) (free : s.lock r = none) :
    ∃ s', SocketStep rt (.acquire i r) s s' := by
  rcases hframes : (s.client r).deliver rt text senderName with ⟨result, client⟩
  cases hout : result >>= fun frame => (s.ws r).send (Vector.replicate 4 0) (dumps rt frame) with
  | ok bytes => exact ⟨_, .acquire busy free hframes hout⟩
  | error exn => exact ⟨_, .acquireFails busy free hframes hout⟩

/-- A thread inside `sendall` goes on unless its socket is blocked. -/
theorem exists_write {r : Nat} (hwrites : s.WritesTo i r) (hblocked : ¬ s.Blocked stalled r) :
    ∃ s', s.Advance rt stalled s' := by
  cases hbroken : s.broken r with
  | true =>
      rcases hwrites with ⟨joined, written, rest, rfl, hworker, _⟩ | ⟨written, rest, relay, hworker, _⟩
      · exact ⟨_, .writeFails i, trivial, .answerFails hworker hbroken⟩
      · exact ⟨_, .writeFails i, trivial, .relayFails hworker hbroken⟩
  | false =>
      have hflows : ¬ stalled r := fun hstalled => hblocked ⟨hstalled, hbroken⟩
      rcases hwrites with ⟨joined, written, rest, rfl, hworker, hrest⟩ | ⟨written, rest, relay, hworker, hrest⟩
      · have hall : s.worker i = .answering joined written (rest ++ []) := by rw [hworker, List.append_nil]
        refine ⟨_, .write i rest, ?_, .writeAnswer hall hrest hbroken⟩
        simp only [Proceeds, hworker]
        exact hflows
      · have hall : s.worker i = .delivering r written (rest ++ []) relay := by rw [hworker, List.append_nil]
        refine ⟨_, .write i rest, ?_, .writeRelayed hall hrest hbroken⟩
        simp only [Proceeds, hworker]
        exact hflows

/-- A thread that holds a lock goes on, or has bytes left for a blocked socket. -/
theorem Held.advances (h : s.Held) {r j : Nat} (hlock : s.lock r = some j) :
    (∃ s', s.Advance rt stalled s') ∨ s.Blocked stalled r ∧ s.WritesTo j r := by
  have hholds := h j r hlock
  cases hworker : s.worker j with
  | delivering r' written rest relay =>
      rw [hworker] at hholds
      obtain rfl := Option.some.inj hholds
      by_cases hrest : rest = []
      · subst hrest
        exact .inl ⟨_, .sent j, trivial, .sentRelayed hworker⟩
      · have hwrites : s.WritesTo j r' := .inr ⟨written, rest, relay, hworker, hrest⟩
        by_cases hblocked : s.Blocked stalled r'
        · exact .inr ⟨hblocked, hwrites⟩
        · exact .inl (exists_write hwrites hblocked)
  | _ =>
      rw [hworker] at hholds
      cases hholds

/-- A thread goes on, is at rest or is held up; the lock it waits for is with a thread that goes on or is held
up in turn. -/
theorem Held.thread_advances (h : s.Held) (i : Nat) :
    (∃ s', s.Advance rt stalled s') ∨ (s.worker i).AtRest ∨ s.HeldUp stalled i := by
  cases hworker : s.worker i with
  | absent | handshaking | looping | ended => exact .inr (.inl trivial)
  | answering joined written rest =>
      by_cases hrest : rest = []
      · subst hrest
        exact .inl ⟨_, .sent i, trivial, .sentAnswer hworker⟩
      · have hwrites : s.WritesTo i i := .inl ⟨joined, written, rest, rfl, hworker, hrest⟩
        by_cases hblocked : s.Blocked stalled i
        · exact .inr (.inr ⟨i, hblocked, .inl hwrites⟩)
        · exact .inl (exists_write hwrites hblocked)
  | broadcasting relay =>
      obtain ⟨text, senderName, todo⟩ := relay
      cases todo with
      | nil => exact .inl ⟨_, .finish i, trivial, .finish hworker⟩
      | cons r todo =>
          cases hlock : s.lock r with
          | none =>
              obtain ⟨s', hstep⟩ := @exists_acquire rt _ _ _ _ _ _ hworker hlock
              exact .inl ⟨s', .acquire i r, trivial, hstep⟩
          | some j =>
              rcases h.advances hlock with hadvances | ⟨hblocked, hwrites⟩
              · exact .inl hadvances
              · exact .inr (.inr ⟨r, hblocked, .inr ⟨text, senderName, todo, j, hworker, hlock, hwrites⟩⟩)
  | delivering r written rest relay =>
      by_cases hrest : rest = []
      · subst hrest
        exact .inl ⟨_, .sent i, trivial, .sentRelayed hworker⟩
      · have hwrites : s.WritesTo i r := .inr ⟨written, rest, relay, hworker, hrest⟩
        by_cases hblocked : s.Blocked stalled r
        · exact .inr (.inr ⟨r, hblocked, .inl hwrites⟩)
        · exact .inl (exists_write hwrites hblocked)
  | dropping r relay => exact .inl ⟨_, .drop i, trivial, .drop hworker⟩
  | leaving => exact .inl ⟨_, .leave i, trivial, .leave hworker⟩

/-- Where no thread goes on, the server has settled. -/
theorem Held.advances_or_settled (h : s.Held) : (∃ s', s.Advance rt stalled s') ∨ s.Settled stalled := by
  by_cases hadvances : ∃ s', s.Advance rt stalled s'
  · exact .inl hadvances
  · right
    constructor
    · intro i
      exact (h.thread_advances i).resolve_left hadvances
    · intro r j hlock
      exact (h.advances hlock).resolve_left hadvances

/-! ### Every step counts -/

/-- A step that a thread takes by itself brings it nearer to rest. -/
theorem Advance.lowers (h : s.Advance rt stalled s') :
    ∃ i worker, s'.worker = update s.worker i worker ∧ Worker.Lower worker.rank (s.worker i).rank := by
  obtain ⟨event, hproceeds, hstep⟩ := h
  cases hstep with
  | acquire busy free frames out =>
      refine ⟨_, _, rfl, Worker.lower_of_steps ?_⟩
      rw [busy]
      simp only [Worker.rank, List.length_cons]
      omega
  | acquireFails busy free frames out =>
      refine ⟨_, _, rfl, Worker.lower_of_steps ?_⟩
      rw [busy]
      simp only [Worker.rank, List.length_cons]
      omega
  | writeAnswer busy nonempty healthy =>
      refine ⟨_, _, rfl, Worker.lower_of_bytes ?_ ?_⟩
      · rw [busy]
        rfl
      · rw [busy]
        have hpart := List.length_pos_of_ne_nil nonempty
        simp only [Worker.rank, List.length_append]
        omega
  | writeRelayed busy nonempty healthy =>
      refine ⟨_, _, rfl, Worker.lower_of_bytes ?_ ?_⟩
      · rw [busy]
        rfl
      · rw [busy]
        have hpart := List.length_pos_of_ne_nil nonempty
        simp only [Worker.rank, List.length_append]
        omega
  | sentAnswer busy =>
      refine ⟨_, _, rfl, Worker.lower_of_steps ?_⟩
      rw [busy, Worker.rank_idle]
      exact Nat.zero_lt_two
  | sentRelayed busy | relayFails busy _ | drop busy =>
      refine ⟨_, _, rfl, Worker.lower_of_steps ?_⟩
      rw [busy]
      simp only [Worker.rank]
      omega
  | answerFails busy _ | finish busy | leave busy =>
      refine ⟨_, _, rfl, Worker.lower_of_steps ?_⟩
      rw [busy]
      simp [Worker.rank]
  | _ => exact hproceeds.elim

/-- A thread that has not started takes no step by itself. -/
theorem not_lower_absent {rank : Nat × Nat} : ¬ Worker.Lower rank (Worker.rank .absent) := by
  rw [Worker.Lower, Prod.lex_def]
  rintro (h | ⟨_, h⟩)
  · exact absurd h (Nat.not_lt_zero _)
  · exact absurd h (Nat.not_lt_zero _)

/-- What holds while the threads go on. -/
structure Going (count : Nat) (s : Sockets) : Prop where
  held : s.Held
  unstarted : s.Unstarted count

/-- A step keeps this, and brings one of the threads nearer to rest. -/
theorem Going.advance {count : Nat} (h : s.Going count) (hstep : s.Advance rt stalled s') :
    s'.Going count ∧ ∃ i : Fin count, Worker.Lower (s'.worker i).rank (s.worker i).rank ∧
      ∀ j : Fin count, j ≠ i → (s'.worker j).rank = (s.worker j).rank := by
  obtain ⟨i, worker, hworker, hlower⟩ := hstep.lowers
  have hi : i < count := by
    by_contra hle
    rw [h.unstarted i (by omega)] at hlower
    exact not_lower_absent hlower
  obtain ⟨event, _, hevent⟩ := hstep
  refine ⟨⟨h.held.step hevent, fun j hj => ?_⟩, ⟨i, hi⟩, ?_, fun j hj => ?_⟩
  · rw [hworker, update_of_ne (by omega)]
    exact h.unstarted j hj
  · rw [hworker, update_self]
    exact hlower
  · have hne : (j : Nat) ≠ i := fun hsame => hj (Fin.ext hsame)
    rw [hworker, update_of_ne hne]

end Sockets

/-- The threads of the server settle. From every state that a run reaches, under every schedule of the steps that
the threads take by themselves, taking a lock, writing a piece of any size, giving up on a failed socket, and
the cleanup behind that, the server comes to a state in which every thread waits for its client or is held up
by a blocked socket: one that neither takes bytes nor has failed, and that the thread is writing to, or whose
lock it waits for while another thread is writing to it. No lock stays taken but those of blocked sockets; so
where no socket stalls, every thread waits for its client and every lock is free. -/
theorem threads_settle (rt : Runtime) {allowed : Sockets → SocketEvent → Prop} {s : Sockets}
    (hrun : Sockets.Run rt allowed s) (stalled : Nat → Prop) :
    Inevitable (Sockets.Advance rt stalled) (fun s' => s'.Settled stalled ∧
      ((∀ r, ¬ stalled r) → (∀ i, (s'.worker i).AtRest) ∧ ∀ r, s'.lock r = none)) s := by
  obtain ⟨count, hcount⟩ := hrun.exists_unstarted
  have hsettles : Inevitable (Sockets.Advance rt stalled) (Sockets.Settled stalled) s := by
    have halive : ∀ s : Sockets, s.Going count → ¬ s.Settled stalled → ∃ s', s.Advance rt stalled s' :=
      fun s hs hgoal => hs.held.advances_or_settled.resolve_right hgoal
    exact Inevitable.of_components Worker.wellFounded_lower (fun s (i : Fin count) => (s.worker i).rank) halive
      (fun s s' hs hstep => hs.advance hstep) ⟨hrun.held, hcount⟩
  refine hsettles.mono fun s' hs' => ⟨hs', fun hflows => ⟨fun i => ?_, fun r => ?_⟩⟩
  · rcases hs'.threads i with hrest | ⟨r, hblocked, _⟩
    · exact hrest
    · exact absurd hblocked.1 (hflows r)
  · cases hlock : s'.lock r with
    | none => rfl
    | some j => exact absurd (hs'.locks r j hlock).1.1 (hflows r)

/-- A pong is to be written and a message is to be relayed to one client, whose socket may stall. -/
theorem threads_settle_two_clients :
    ∃ s : Sockets, Sockets.Run (sampleRuntime hmacSha256) (fun _ _ => True) s ∧
      s.lock 1 = some 0 ∧ ¬ (s.worker 0).AtRest ∧ ¬ (s.worker 1).AtRest ∧
      Inevitable (Sockets.Advance (sampleRuntime hmacSha256) (· = 1)) (fun s' => s'.Settled (· = 1) ∧
        ((∀ r : Nat, ¬ r = 1) → (∀ i, (s'.worker i).AtRest) ∧ ∀ r, s'.lock r = none)) s := by
  have hothers : AllowsOthers fun _ _ => True := fun _ _ _ => trivial
  obtain ⟨s, hrun, hann, hbob, hws, hlock, hzero, hone, _, _, _, hregistry⟩ := exists_ponging hothers
  obtain ⟨s', hrun', hzero', hsame, _, _⟩ := exists_relaying hothers hrun hann hbob hws hlock hzero hregistry
  refine ⟨s', hrun', hrun'.locked 0 1 ?_, ?_, ?_, threads_settle _ hrun' _⟩
  · rw [hzero']
    rfl
  · rw [hzero']
    exact id
  · rw [hsame 1 Nat.one_ne_zero, hone]
    exact id

end Priestly
