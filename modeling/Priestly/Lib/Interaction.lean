/-
Module: Priestly.Lib.Interaction
Layer: Lib
Purpose: Straight-line programs that talk over one connection: they send, wait for the next incoming
  message, return, or raise. A program is run against a connection that answers each write and
  supplies each read; two programs are linked back to back by two reliable in-order queues. The
  `Inevitable` modality states that every schedule of a step relation reaches a goal.
Imports: Mathlib relation closures
Trusted boundary: none
Main exports: Program, Program.run, Connection.live, Link, LinkStep, Inevitable
-/
import Mathlib.Logic.Relation

namespace Interaction

/-- A program over one connection. `In` and `Out` are the messages read and written, `ε` the
exceptions. A write is answered by the connection (`none` for success), so a program may also
continue after a write that failed. -/
inductive Program (In Out ε α : Type) where
  | done (value : α)
  | raise (exn : ε)
  | send (message : Out) (next : Option ε → Program In Out ε α)
  | recv (next : Except ε In → Program In Out ε α)

namespace Program

variable {In Out ε α β : Type}

/-- Sequential composition. -/
def bind : Program In Out ε α → (α → Program In Out ε β) → Program In Out ε β
  | .done value, f => f value
  | .raise exn, _ => .raise exn
  | .send message next, f => .send message fun answer => (next answer).bind f
  | .recv next, f => .recv fun input => (next input).bind f

/-- Run a handler in place of the exception a program ends with. -/
def handle : Program In Out ε α → (ε → Program In Out ε α) → Program In Out ε α
  | .done value, _ => .done value
  | .raise exn, handler => handler exn
  | .send message next, handler => .send message fun answer => (next answer).handle handler
  | .recv next, handler => .recv fun input => (next input).handle handler

instance : Monad (Program In Out ε) where
  pure := .done
  bind := bind

instance : MonadExcept ε (Program In Out ε) where
  throw := .raise
  tryCatch := handle

/-- Write a message; a failed write raises the connection's exception. -/
def emit (message : Out) : Program In Out ε Unit :=
  .send message fun
    | none => .done ()
    | some exn => .raise exn

/-- Write a message and carry on whether or not the write succeeded. -/
def tryEmit (message : Out) : Program In Out ε Unit :=
  .send message fun _ => .done ()

/-- Wait for the next message; a failed read raises the connection's exception. -/
def await : Program In Out ε In :=
  .recv fun
    | .ok input => .done input
    | .error exn => .raise exn

/-- A computation that does not touch the connection. -/
def lift : Except ε α → Program In Out ε α
  | .ok value => .done value
  | .error exn => .raise exn

/-- How a run stands: it returned, raised, or still waits for input. -/
inductive Outcome (ε α : Type) where
  | returned (value : α)
  | raised (exn : ε)
  | waiting
deriving DecidableEq, Repr

/-- What a run did: the messages that reached the wire, in order, and how it stands. -/
structure Trace (Out ε α : Type) where
  sent : List Out
  outcome : Outcome ε α
deriving DecidableEq, Repr

end Program

/-- The environment of one run: the answers to the successive writes (success once the list is used
up) and the results of the successive reads. -/
structure Connection (In ε : Type) where
  writes : List (Option ε)
  reads : List (Except ε In)

/-- A live connection: every write succeeds and every read yields a message. -/
def Connection.live {In ε : Type} (inputs : List In) : Connection In ε :=
  { writes := [], reads := inputs.map .ok }

namespace Program

variable {In Out ε α β : Type}

/-- Run a program against a connection. A message counts as sent when its write succeeded. -/
def run : Program In Out ε α → Connection In ε → Trace Out ε α
  | .done value, _ => { sent := [], outcome := .returned value }
  | .raise exn, _ => { sent := [], outcome := .raised exn }
  | .send message next, ⟨[], reads⟩ =>
      let trace := (next none).run ⟨[], reads⟩
      { trace with sent := message :: trace.sent }
  | .send message next, ⟨none :: writes, reads⟩ =>
      let trace := (next none).run ⟨writes, reads⟩
      { trace with sent := message :: trace.sent }
  | .send _ next, ⟨some exn :: writes, reads⟩ => (next (some exn)).run ⟨writes, reads⟩
  | .recv _, ⟨_, []⟩ => { sent := [], outcome := .waiting }
  | .recv next, ⟨writes, input :: reads⟩ => (next input).run ⟨writes, reads⟩

/-- Run over a live connection that delivers the given messages. -/
def runLive (program : Program In Out ε α) (inputs : List In) : Trace Out ε α :=
  program.run (.live inputs)

section Equations

variable (inputs : List In) (f : α → Program In Out ε β)

@[simp] theorem runLive_done (value : α) :
    (Program.done value : Program In Out ε α).runLive inputs = ⟨[], .returned value⟩ := rfl

@[simp] theorem runLive_raise (exn : ε) :
    (Program.raise exn : Program In Out ε α).runLive inputs = ⟨[], .raised exn⟩ := rfl

@[simp] theorem runLive_pure (value : α) :
    (Pure.pure value : Program In Out ε α).runLive inputs = ⟨[], .returned value⟩ := rfl

@[simp] theorem runLive_throw (exn : ε) :
    (MonadExcept.throw exn : Program In Out ε α).runLive inputs = ⟨[], .raised exn⟩ := rfl

@[simp] theorem pure_bind (value : α) :
    (Pure.pure value >>= f : Program In Out ε β) = f value := rfl

@[simp] theorem done_bind (value : α) :
    ((Program.done value : Program In Out ε α) >>= f) = f value := rfl

@[simp] theorem throw_bind (exn : ε) :
    ((MonadExcept.throw exn : Program In Out ε α) >>= f) = Program.raise exn := rfl

@[simp] theorem raise_bind (exn : ε) :
    ((Program.raise exn : Program In Out ε α) >>= f) = Program.raise exn := rfl

@[simp] theorem lift_ok (value : α) :
    (lift (.ok value) : Program In Out ε α) = .done value := rfl

@[simp] theorem lift_error (exn : ε) :
    (lift (.error exn) : Program In Out ε α) = .raise exn := rfl

variable (g : Unit → Program In Out ε β) (h : In → Program In Out ε β)

@[simp] theorem runLive_emit_bind (message : Out) :
    (emit message >>= g).runLive inputs =
      { (g ()).runLive inputs with sent := message :: ((g ()).runLive inputs).sent } := rfl

@[simp] theorem runLive_tryEmit_bind (message : Out) :
    (tryEmit message >>= g).runLive inputs =
      { (g ()).runLive inputs with sent := message :: ((g ()).runLive inputs).sent } := rfl

@[simp] theorem runLive_await_bind_nil :
    (await >>= h : Program In Out ε β).runLive [] = ⟨[], .waiting⟩ := rfl

@[simp] theorem runLive_await_bind_cons (input : In) :
    (await >>= h : Program In Out ε β).runLive (input :: inputs) = (h input).runLive inputs := rfl

end Equations

/-- Further input only extends what a run has sent, and never revises a run that has ended. -/
theorem runLive_append (program : Program In Out ε α) (inputs more : List In) :
    ∃ further, (program.runLive (inputs ++ more)).sent = (program.runLive inputs).sent ++ further ∧
      ((program.runLive inputs).outcome ≠ .waiting →
        program.runLive (inputs ++ more) = program.runLive inputs) := by
  induction program generalizing inputs with
  | done value => exact ⟨[], by simp, fun _ => by simp⟩
  | raise exn => exact ⟨[], by simp, fun _ => by simp⟩
  | send message next ih =>
      obtain ⟨further, hsent, hend⟩ := ih none inputs
      refine ⟨further, ?_, ?_⟩
      · exact congrArg (message :: ·) hsent
      · intro hout
        have same := hend hout
        unfold runLive at same ⊢
        simp only [Connection.live, run] at same ⊢
        rw [same]
  | recv next ih =>
      cases inputs with
      | nil => exact ⟨_, rfl, fun hout => absurd rfl hout⟩
      | cons input inputs => exact ih (.ok input) inputs

/-- A program whose result is put through a function returns exactly when the program does. -/
theorem returned_bind_pure_iff (program : Program In Out ε α) (f : α → β) (inputs : List In)
    (result : β) :
    ((program >>= fun value => Pure.pure (f value)).runLive inputs).outcome = .returned result ↔
      ∃ value, (program.runLive inputs).outcome = .returned value ∧ f value = result := by
  induction program generalizing inputs with
  | done value =>
      constructor
      · intro h
        exact ⟨value, rfl, Outcome.returned.inj h⟩
      · rintro ⟨_, h, rfl⟩
        obtain rfl := Outcome.returned.inj h
        rfl
  | raise exn =>
      constructor
      · intro h
        cases h
      · rintro ⟨_, h, _⟩
        cases h
  | send message next ih => exact ih none inputs
  | recv next ih =>
      cases inputs with
      | nil =>
          constructor
          · intro h
            cases h
          · rintro ⟨_, h, _⟩
            cases h
      | cons input inputs => exact ih (.ok input) inputs

end Program

/-! ### Two programs over reliable in-order queues -/

/-- Two programs linked back to back. Each queue holds the messages written by one side and not yet
read by the other; `wire` records every message in the order of the writes. -/
structure Link (In Out ε α β : Type) where
  left : Program In Out ε α
  right : Program In Out ε β
  toLeft : List Out
  toRight : List Out
  wire : List Out

section Link

variable {In Out ε α β : Type}

/-- One step of a link: either side writes or reads. `encode` is what the wire makes of a message. -/
inductive LinkStep (encode : Out → In) :
    Link In Out ε α β → Link In Out ε α β → Prop where
  | leftSend {message next right toLeft toRight wire} :
      LinkStep encode ⟨.send message next, right, toLeft, toRight, wire⟩
        ⟨next none, right, toLeft, toRight ++ [message], wire ++ [message]⟩
  | rightSend {left message next toLeft toRight wire} :
      LinkStep encode ⟨left, .send message next, toLeft, toRight, wire⟩
        ⟨left, next none, toLeft ++ [message], toRight, wire ++ [message]⟩
  | leftRecv {next right message toLeft toRight wire} :
      LinkStep encode ⟨.recv next, right, message :: toLeft, toRight, wire⟩
        ⟨next (.ok (encode message)), right, toLeft, toRight, wire⟩
  | rightRecv {left next toLeft message toRight wire} :
      LinkStep encode ⟨left, .recv next, toLeft, message :: toRight, wire⟩
        ⟨left, next (.ok (encode message)), toLeft, toRight, wire⟩

/-- Both programs at their start, nothing on the wire. -/
def Link.start (left : Program In Out ε α) (right : Program In Out ε β) : Link In Out ε α β :=
  { left, right, toLeft := [], toRight := [], wire := [] }

end Link

/-! ### Inevitability -/

/-- Every schedule of `step` from `s` reaches `goal`: `s` is a goal, or `s` is not stuck and the goal
is inevitable from each of its successors. -/
inductive Inevitable {σ : Type} (step : σ → σ → Prop) (goal : σ → Prop) : σ → Prop where
  | here {s} (reached : goal s) : Inevitable step goal s
  | step {s} (alive : ∃ t, step s t) (all : ∀ t, step s t → Inevitable step goal t) :
      Inevitable step goal s

namespace Inevitable

variable {σ : Type} {step : σ → σ → Prop} {goal : σ → Prop}

/-- A state with a single successor inherits inevitability from it. -/
theorem of_unique {s t : σ} (h : step s t) (unique : ∀ u, step s u → u = t)
    (ht : Inevitable step goal t) : Inevitable step goal s :=
  .step ⟨t, h⟩ fun u hu => unique u hu ▸ ht

end Inevitable

section LinkSteps

variable {In Out ε α β : Type} {encode : Out → In} {goal : Link In Out ε α β → Prop}
variable {toLeft toRight wire : List Out} {message : Out}

/-- The left side writes while the right side waits on an empty queue. -/
theorem inevitable_leftSend {next : Option ε → Program In Out ε α}
    {other : Except ε In → Program In Out ε β}
    (h : Inevitable (LinkStep encode) goal
      ⟨next none, .recv other, toLeft, [message], wire ++ [message]⟩) :
    Inevitable (LinkStep encode) goal ⟨.send message next, .recv other, toLeft, [], wire⟩ := by
  refine Inevitable.of_unique .leftSend ?_ h
  intro u hu
  cases hu
  rfl

/-- The right side writes while the left side waits on an empty queue. -/
theorem inevitable_rightSend {next : Option ε → Program In Out ε β}
    {other : Except ε In → Program In Out ε α}
    (h : Inevitable (LinkStep encode) goal
      ⟨.recv other, next none, [message], toRight, wire ++ [message]⟩) :
    Inevitable (LinkStep encode) goal ⟨.recv other, .send message next, [], toRight, wire⟩ := by
  refine Inevitable.of_unique .rightSend ?_ h
  intro u hu
  cases hu
  rfl

/-- The right side reads while the left side waits on an empty queue. -/
theorem inevitable_rightRecv {next : Except ε In → Program In Out ε β}
    {other : Except ε In → Program In Out ε α}
    (h : Inevitable (LinkStep encode) goal
      ⟨.recv other, next (.ok (encode message)), [], toRight, wire⟩) :
    Inevitable (LinkStep encode) goal ⟨.recv other, .recv next, [], message :: toRight, wire⟩ := by
  refine Inevitable.of_unique .rightRecv ?_ h
  intro u hu
  cases hu
  rfl

/-- The left side reads while the right side waits on an empty queue. -/
theorem inevitable_leftRecv {next : Except ε In → Program In Out ε α}
    {other : Except ε In → Program In Out ε β}
    (h : Inevitable (LinkStep encode) goal
      ⟨next (.ok (encode message)), .recv other, toLeft, [], wire⟩) :
    Inevitable (LinkStep encode) goal ⟨.recv next, .recv other, message :: toLeft, [], wire⟩ := by
  refine Inevitable.of_unique .leftRecv ?_ h
  intro u hu
  cases hu
  rfl

/-- The left side reads the last message of a right side that has finished. -/
theorem inevitable_leftRecv_done {next : Except ε In → Program In Out ε α} {value : β}
    (h : Inevitable (LinkStep encode) goal
      ⟨next (.ok (encode message)), .done value, toLeft, toRight, wire⟩) :
    Inevitable (LinkStep encode) goal
      ⟨.recv next, .done value, message :: toLeft, toRight, wire⟩ := by
  refine Inevitable.of_unique .leftRecv ?_ h
  intro u hu
  cases hu
  rfl

end LinkSteps

end Interaction
