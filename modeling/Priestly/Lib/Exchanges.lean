/-
Module: Priestly.Lib.Exchanges
Layer: Lib
Purpose: A program over a connection, one exchange at a time: what is left of it after it has written and
  read some messages. What is left after a sequence, a handler or a single action is split along the
  exchanges, and a program that has nothing left to do has the outcome of its run.
Imports: Priestly.Lib.Interaction
Trusted boundary: none
Main exports: Exchange, Program.After, Program.After.outcome, Program.After.bind_done, Program.Writes,
  Program.Returns
-/
import Priestly.Lib.Interaction

namespace Interaction

/-- One exchange with the connection: a write with the connection's answer, or a read. -/
inductive Exchange (In Out ε : Type) where
  | wrote (message : Out) (answer : Option ε)
  | read (input : Except ε In)

namespace Exchange

variable {In Out ε : Type}

/-- The answer to a write. -/
def answer? : Exchange In Out ε → Option (Option ε)
  | .wrote _ answer => some answer
  | .read _ => none

/-- The result of a read. -/
def input? : Exchange In Out ε → Option (Except ε In)
  | .wrote _ _ => none
  | .read input => some input

/-- The connection that answers as it has in the exchanges. -/
def connection (exchanges : List (Exchange In Out ε)) : Connection In ε where
  writes := exchanges.filterMap answer?
  reads := exchanges.filterMap input?

end Exchange

namespace Program

variable {In Out ε α β : Type}

/-- `rest` is what is left of the program after the exchanges. -/
inductive After : Program In Out ε α → List (Exchange In Out ε) → Program In Out ε α → Prop where
  | nil {program} : After program [] program
  | wrote {message next answer exchanges rest} (later : After (next answer) exchanges rest) :
      After (.send message next) (.wrote message answer :: exchanges) rest
  | read {next input exchanges rest} (later : After (next input) exchanges rest) :
      After (.recv next) (.read input :: exchanges) rest

namespace After

variable {program rest last : Program In Out ε α} {exchanges more : List (Exchange In Out ε)}

/-- Exchanges follow one another. -/
theorem append (h : After program exchanges rest) (h' : After rest more last) :
    After program (exchanges ++ more) last := by
  induction h with
  | nil => exact h'
  | wrote _ ih => exact .wrote (ih h')
  | read _ ih => exact .read (ih h')

/-- The program writes its next message. -/
theorem snoc_wrote {message : Out} {next : Option ε → Program In Out ε α} {answer : Option ε}
    (h : After program exchanges (.send message next)) :
    After program (exchanges ++ [.wrote message answer]) (next answer) :=
  h.append (.wrote .nil)

/-- The program reads its next message. -/
theorem snoc_read {next : Except ε In → Program In Out ε α} {input : Except ε In}
    (h : After program exchanges (.recv next)) :
    After program (exchanges ++ [.read input]) (next input) :=
  h.append (.read .nil)

/-- A sequence goes on with its second part when the first has returned. -/
theorem bind {first : Program In Out ε α} {f : α → Program In Out ε β} {value : α}
    {rest : Program In Out ε β} (h : After first exchanges (.done value))
    (h' : After (f value) more rest) : After (first >>= f) (exchanges ++ more) rest := by
  generalize hlast : (Program.done value : Program In Out ε α) = last at h
  induction h with
  | nil =>
      rw [← hlast]
      exact h'
  | wrote _ ih => exact .wrote (ih hlast)
  | read _ ih => exact .read (ih hlast)

/-- A guarded program that returns does not need its handler. -/
theorem handle {guarded : Program In Out ε α} {value : α} (handler : ε → Program In Out ε α)
    (h : After guarded exchanges (.done value)) :
    After (guarded.handle handler) exchanges (.done value) := by
  generalize hlast : (Program.done value : Program In Out ε α) = last at h ⊢
  induction h with
  | nil =>
      rw [← hlast]
      exact .nil
  | wrote _ ih => exact .wrote (ih hlast)
  | read _ ih => exact .read (ih hlast)

/-- A program that has returned exchanges nothing more. -/
theorem done_inv {value : α} (h : After (.done value) exchanges rest) :
    exchanges = [] ∧ rest = .done value := by
  cases h
  exact ⟨rfl, rfl⟩

/-- A program that has raised exchanges nothing more. -/
theorem raise_inv {exn : ε} (h : After (.raise exn) exchanges rest) :
    exchanges = [] ∧ rest = .raise exn := by
  cases h
  exact ⟨rfl, rfl⟩

/-- The run over the connection of the exchanges ends as what is left of the program does. -/
theorem outcome (h : After program exchanges rest) (writes : List (Option ε))
    (reads : List (Except ε In)) :
    (program.run ⟨(Exchange.connection exchanges).writes ++ writes,
      (Exchange.connection exchanges).reads ++ reads⟩).outcome = (rest.run ⟨writes, reads⟩).outcome := by
  induction h with
  | nil => rfl
  | @wrote message next answer exchanges rest _ ih =>
      cases answer with
      | none => exact ih
      | some exn => exact ih
  | read _ ih => exact ih

/-- A program of which nothing is left but its value returns it. -/
theorem returned {value : α} (h : After program exchanges (.done value)) :
    (program.run (Exchange.connection exchanges)).outcome = .returned value := by
  have hrun := h.outcome [] []
  rw [List.append_nil, List.append_nil] at hrun
  exact hrun

/-- A sequence that has returned had its first part return before. -/
theorem bind_done {first : Program In Out ε α} {f : α → Program In Out ε β} {value : β}
    (h : After (first >>= f) exchanges (.done value)) :
    ∃ middle before after, exchanges = before ++ after ∧ After first before (.done middle) ∧
      After (f middle) after (.done value) := by
  induction first generalizing exchanges with
  | done middle => exact ⟨middle, [], exchanges, rfl, .nil, h⟩
  | raise exn => exact nomatch h.raise_inv.2
  | send message next ih =>
      cases h with
      | wrote later =>
          obtain ⟨middle, before, after, rfl, hfirst, hsecond⟩ := ih _ later
          exact ⟨middle, _ :: before, after, rfl, .wrote hfirst, hsecond⟩
  | recv next ih =>
      cases h with
      | read later =>
          obtain ⟨middle, before, after, rfl, hfirst, hsecond⟩ := ih _ later
          exact ⟨middle, _ :: before, after, rfl, .read hfirst, hsecond⟩

/-- A guarded program that has returned did so itself, or its handler did. -/
theorem handle_done {guarded : Program In Out ε α} {handler : ε → Program In Out ε α} {value : α}
    (h : After (guarded.handle handler) exchanges (.done value)) :
    After guarded exchanges (.done value) ∨
      ∃ exn before after, exchanges = before ++ after ∧ After guarded before (.raise exn) ∧
        After (handler exn) after (.done value) := by
  induction guarded generalizing exchanges with
  | done middle => exact .inl h
  | raise exn => exact .inr ⟨exn, [], exchanges, rfl, .nil, h⟩
  | send message next ih =>
      cases h with
      | wrote later =>
          rcases ih _ later with hreturned | ⟨exn, before, after, rfl, hraised, hhandler⟩
          · exact .inl (.wrote hreturned)
          · exact .inr ⟨exn, _ :: before, after, rfl, .wrote hraised, hhandler⟩
  | recv next ih =>
      cases h with
      | read later =>
          rcases ih _ later with hreturned | ⟨exn, before, after, rfl, hraised, hhandler⟩
          · exact .inl (.read hreturned)
          · exact .inr ⟨exn, _ :: before, after, rfl, .read hraised, hhandler⟩

/-- A write that has succeeded. -/
theorem emit_done {message : Out} {value : Unit}
    (h : After (emit message : Program In Out ε Unit) exchanges (.done value)) :
    exchanges = [.wrote message none] := by
  cases h with
  | @wrote _ _ answer _ _ later =>
      cases answer with
      | none => rw [later.done_inv.1]
      | some exn => exact nomatch later.raise_inv.2

/-- A read that has succeeded. -/
theorem await_done {input : In}
    (h : After (await : Program In Out ε In) exchanges (.done input)) :
    exchanges = [.read (.ok input)] := by
  cases h with
  | @read _ result _ _ later =>
      cases result with
      | ok message =>
          obtain ⟨rfl, hinput⟩ := later.done_inv
          rw [Program.done.inj hinput]
      | error exn => exact nomatch later.raise_inv.2

/-- A computation that has succeeded. -/
theorem lift_done {result : Except ε α} {value : α}
    (h : After (lift result : Program In Out ε α) exchanges (.done value)) :
    exchanges = [] ∧ result = .ok value := by
  cases result with
  | ok middle =>
      obtain ⟨hnone, hvalue⟩ := h.done_inv
      exact ⟨hnone, congrArg Except.ok (Program.done.inj hvalue).symm⟩
  | error exn => exact nomatch h.raise_inv.2

end After

/-! ### What a program may write -/

/-- Whatever the connection does, all messages the program writes satisfy the predicate. -/
def Writes (p : Out → Prop) : Program In Out ε α → Prop
  | .done _ => True
  | .raise _ => True
  | .send message next => p message ∧ ∀ answer, (next answer).Writes p
  | .recv next => ∀ input, (next input).Writes p

section Writes

variable {p : Out → Prop}

theorem Writes.bind {program : Program In Out ε α} {f : α → Program In Out ε β}
    (h : program.Writes p) (hf : ∀ value, (f value).Writes p) : (program >>= f).Writes p := by
  induction program with
  | done value => exact hf value
  | raise exn => trivial
  | send message next ih => exact ⟨h.1, fun answer => ih answer (h.2 answer)⟩
  | recv next ih => exact fun input => ih input (h input)

theorem Writes.handle {program : Program In Out ε α} {handler : ε → Program In Out ε α}
    (h : program.Writes p) (hhandler : ∀ exn, (handler exn).Writes p) :
    (program.handle handler).Writes p := by
  induction program with
  | done value => trivial
  | raise exn => exact hhandler exn
  | send message next ih => exact ⟨h.1, fun answer => ih answer (h.2 answer)⟩
  | recv next ih => exact fun input => ih input (h input)

theorem Writes.emit {message : Out} (h : p message) :
    (Program.emit message : Program In Out ε Unit).Writes p := by
  refine ⟨h, ?_⟩
  intro answer
  cases answer with
  | none => trivial
  | some exn => trivial

theorem Writes.tryEmit {message : Out} (h : p message) :
    (Program.tryEmit message : Program In Out ε Unit).Writes p :=
  ⟨h, fun _ => trivial⟩

theorem Writes.await : (Program.await : Program In Out ε In).Writes p := by
  intro input
  cases input with
  | ok message => trivial
  | error exn => trivial

theorem Writes.lift (result : Except ε α) : (Program.lift result : Program In Out ε α).Writes p := by
  cases result with
  | ok value => trivial
  | error exn => trivial

/-- What is left of a program writes nothing else. -/
theorem Writes.after {program rest : Program In Out ε α} {exchanges : List (Exchange In Out ε)}
    (h : program.Writes p) (hafter : After program exchanges rest) : rest.Writes p := by
  induction hafter with
  | nil => exact h
  | wrote _ ih => exact ih (h.2 _)
  | read _ ih => exact ih (h _)

end Writes

/-! ### What a program may return -/

/-- Whatever the connection does, a value the program returns satisfies the predicate. -/
def Returns (q : α → Prop) : Program In Out ε α → Prop
  | .done value => q value
  | .raise _ => True
  | .send _ next => ∀ answer, (next answer).Returns q
  | .recv next => ∀ input, (next input).Returns q

section Returns

variable {q : β → Prop}

theorem Returns.bind (program : Program In Out ε α) {f : α → Program In Out ε β}
    (hf : ∀ value, (f value).Returns q) : (program >>= f).Returns q := by
  induction program with
  | done value => exact hf value
  | raise exn => trivial
  | send message next ih => exact ih
  | recv next ih => exact ih

/-- The value that is left of a program is one it may return. -/
theorem Returns.after {program : Program In Out ε β} {exchanges : List (Exchange In Out ε)} {value : β}
    (h : program.Returns q) (hafter : After program exchanges (.done value)) : q value := by
  generalize hlast : (Program.done value : Program In Out ε β) = last at hafter
  induction hafter with
  | nil =>
      rw [← hlast] at h
      exact h
  | wrote _ ih => exact ih (h _) hlast
  | read _ ih => exact ih (h _) hlast

end Returns

end Program

end Interaction
