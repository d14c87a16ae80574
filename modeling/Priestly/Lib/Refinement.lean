/-
Module: Priestly.Lib.Refinement
Layer: Lib
Purpose: Refinement between two step relations, where the concrete system may take finitely many silent steps
  between two steps of the abstract one. Runs are mapped to runs, and what every abstract schedule reaches,
  every concrete schedule reaches. Beside it rules for inevitability itself, and for linked programs that stand
  in contexts.
Imports: Priestly.Lib.Interaction, Mathlib relation closures
Trusted boundary: none
Main exports: Refines, Refines.run, Refines.inevitable, Inevitable.mono, Inevitable.onward,
  Inevitable.reachable, Inevitable.never, Inevitable.of_wellFounded,
  Inevitable.of_components, Program.Context, inevitable_fill
-/
import Mathlib.Data.DFinsupp.WellFounded
import Mathlib.Logic.Relation
import Priestly.Lib.Interaction

namespace Interaction

variable {σ τ : Type}

/-- `concrete` refines `abstract` along a relation of their states. A concrete step is an abstract one, or it
is silent and lowers the rank; and the concrete system is not stuck where the abstract one is not. -/
structure Refines (concrete : σ → σ → Prop) (abstract : τ → τ → Prop) (related : σ → τ → Prop)
    (rank : σ → Nat) : Prop where
  step : ∀ {c c' a}, related c a → concrete c c' →
    (∃ a', abstract a a' ∧ related c' a') ∨ (related c' a ∧ rank c' < rank c)
  alive : ∀ {c a a'}, related c a → abstract a a' → ∃ c', concrete c c'

namespace Refines

variable {concrete : σ → σ → Prop} {abstract : τ → τ → Prop} {related : σ → τ → Prop} {rank : σ → Nat}

/-- A concrete run is explained by an abstract one. -/
theorem run (h : Refines concrete abstract related rank) {c c' : σ} {a : τ} (hrelated : related c a)
    (hrun : Relation.ReflTransGen concrete c c') :
    ∃ a', Relation.ReflTransGen abstract a a' ∧ related c' a' := by
  induction hrun with
  | refl => exact ⟨a, .refl, hrelated⟩
  | tail _ hstep ih =>
      obtain ⟨between, hreach, hbetween⟩ := ih
      rcases h.step hbetween hstep with ⟨a', habstract, hrelated'⟩ | ⟨hrelated', _⟩
      · exact ⟨a', hreach.tail habstract, hrelated'⟩
      · exact ⟨between, hreach, hrelated'⟩

/-- Every concrete schedule reaches what every abstract schedule reaches. The outer induction is on the
inevitability of the goal, the inner one on the rank, which bounds the silent steps. -/
theorem inevitable (h : Refines concrete abstract related rank) {goal : τ → Prop} {c : σ} {a : τ}
    (hrelated : related c a) (hgoal : Inevitable abstract goal a) :
    Inevitable concrete (fun c => ∃ a, related c a ∧ goal a) c := by
  induction hgoal generalizing c with
  | here reached => exact .here ⟨_, hrelated, reached⟩
  | @step a alive all ih =>
      induction hrank : rank c using Nat.strongRecOn generalizing c with
      | ind size ihRank =>
          obtain ⟨a', habstract⟩ := alive
          apply Inevitable.step (h.alive hrelated habstract)
          intro c' hstep
          rcases h.step hrelated hstep with ⟨a'', habstract', hrelated'⟩ | ⟨hrelated', hlower⟩
          · exact ih a'' habstract' hrelated'
          · exact ihRank (rank c') (hrank ▸ hlower) hrelated' rfl

end Refines

namespace Inevitable

variable {step : σ → σ → Prop} {goal : σ → Prop}

/-- What implies a goal is as inevitable. -/
theorem mono {goal' : σ → Prop} {s : σ} (h : Inevitable step goal s) (himp : ∀ s, goal s → goal' s) :
    Inevitable step goal' s := by
  induction h with
  | here reached => exact .here (himp _ reached)
  | step alive _ ih => exact .step alive ih

/-- On the way to an inevitable goal, the goal stays inevitable until it has been reached. -/
theorem onward {s t : σ} (h : Inevitable step goal s) (hrun : Relation.ReflTransGen step s t) :
    Inevitable step goal t ∨ ∃ g, goal g ∧ Relation.ReflTransGen step g t := by
  induction h with
  | @here s reached => exact .inr ⟨s, reached, hrun⟩
  | @step s alive all ih =>
      rcases hrun.cases_head with rfl | ⟨next, hstep, hrest⟩
      · exact .inl (.step alive all)
      · exact ih next hstep hrest

/-- An inevitable goal can be reached. -/
theorem reachable {s : σ} (h : Inevitable step goal s) :
    ∃ g, goal g ∧ Relation.ReflTransGen step s g := by
  induction h with
  | @here s reached => exact ⟨s, reached, .refl⟩
  | step alive all ih =>
      obtain ⟨next, hstep⟩ := alive
      obtain ⟨g, hg, hrest⟩ := ih next hstep
      exact ⟨g, hg, .head hstep hrest⟩

/-- What lasts and what no goal has cannot come about where a goal is inevitable and runs end there. -/
theorem never (bad : σ → Prop) {s : σ} (h : Inevitable step goal s)
    (stuck : ∀ g, goal g → ∀ t, ¬ step g t) (lasts : ∀ t t', bad t → step t t' → bad t')
    (hgoal : ∀ g, goal g → ¬ bad g) {t : σ} (hrun : Relation.ReflTransGen step s t) : ¬ bad t := by
  intro hbad
  rcases h.onward hrun with honward | ⟨g, hg, hlater⟩
  · obtain ⟨g, hg, hlater⟩ := honward.reachable
    apply hgoal g hg
    clear hg
    induction hlater with
    | refl => exact hbad
    | tail _ hstep ih => exact lasts _ _ ih hstep
  · rcases hlater.cases_head with rfl | ⟨next, hstep, _⟩
    · exact hgoal g hg hbad
    · exact stuck g hg next hstep

/-- A goal is inevitable when short of it there is always a step, and every step lowers a well-founded
measure. -/
theorem of_wellFounded {β : Type} {lower : β → β → Prop} (hwf : WellFounded lower) (measure : σ → β)
    {invariant : σ → Prop} (alive : ∀ s, invariant s → ¬ goal s → ∃ t, step s t)
    (lowers : ∀ s t, invariant s → step s t → invariant t ∧ lower (measure t) (measure s)) {s : σ}
    (hs : invariant s) : Inevitable step goal s := by
  induction hsize : measure s using hwf.induction generalizing s with
  | _ size ih =>
      by_cases hgoal : goal s
      · exact .here hgoal
      · apply Inevitable.step (alive s hs hgoal)
        intro t hstep
        obtain ⟨ht, hlower⟩ := lowers s t hs hstep
        exact ih (measure t) (hsize ▸ hlower) ht rfl

/-- The same for a system of finitely many components, each with a measure of its own, when every step lowers
the measure of one component and leaves the others. -/
theorem of_components {β : Type} {lower : β → β → Prop} (hwf : WellFounded lower) {count : Nat}
    (measure : σ → Fin count → β) {invariant : σ → Prop}
    (alive : ∀ s, invariant s → ¬ goal s → ∃ t, step s t)
    (lowers : ∀ s t, invariant s → step s t → invariant t ∧
      ∃ i, lower (measure t i) (measure s i) ∧ ∀ j, j ≠ i → measure t j = measure s j) {s : σ}
    (hs : invariant s) : Inevitable step goal s := by
  have hlex : WellFounded (Pi.Lex (fun i j : Fin count => i < j) fun {_} => lower) :=
    Pi.Lex.wellFounded _ fun _ => hwf
  refine of_wellFounded hlex measure alive ?_ hs
  intro s t hs hstep
  obtain ⟨ht, i, hlower, hothers⟩ := lowers s t hs hstep
  exact ⟨ht, i, fun j hj => hothers j (ne_of_lt hj), hlower⟩

end Inevitable

/-! ### Programs in a context -/

namespace Program

variable {In Out ε α α' β β' : Type}

/-- The program has returned or raised. -/
def Ended : Program In Out ε α → Prop
  | .done _ | .raise _ => True
  | .send _ _ | .recv _ => False

/-- The context waits for the program to end: until then it writes and reads what the program does, and at the
end it only turns one end into another. -/
structure Context (fill : Program In Out ε α → Program In Out ε β) : Prop where
  send : ∀ message next, fill (.send message next) = .send message fun answer => fill (next answer)
  recv : ∀ next, fill (.recv next) = .recv fun input => fill (next input)
  ended : ∀ program, program.Ended → (fill program).Ended

/-- Sequences are regrouped. -/
theorem bind_assoc (program : Program In Out ε α) (f : α → Program In Out ε β) (g : β → Program In Out ε β') :
    (program >>= f) >>= g = program >>= fun value => f value >>= g := by
  induction program with
  | done value => rfl
  | raise exn => rfl
  | send message next ih => exact congrArg (Program.send message) (funext ih)
  | recv next ih => exact congrArg Program.recv (funext ih)

namespace Context

/-- A sequence whose second part does not touch the connection. -/
theorem bind {f : α → Program In Out ε β} (h : ∀ value, (f value).Ended) :
    Context fun program : Program In Out ε α => program >>= f where
  send _ _ := rfl
  recv _ := rfl
  ended program hended := by
    cases program with
    | done value => exact h value
    | raise exn => exact trivial
    | send _ _ => exact hended.elim
    | recv _ => exact hended.elim

/-- A handler that does not touch the connection. -/
theorem handle {handler : ε → Program In Out ε α} (h : ∀ exn, (handler exn).Ended) :
    Context fun program : Program In Out ε α => program.handle handler where
  send _ _ := rfl
  recv _ := rfl
  ended program hended := by
    cases program with
    | done value => exact trivial
    | raise exn => exact h exn
    | send _ _ => exact hended.elim
    | recv _ => exact hended.elim

/-- A context in a context. -/
theorem comp {outer : Program In Out ε β → Program In Out ε β'} {inner : Program In Out ε α → Program In Out ε β}
    (houter : Context outer) (hinner : Context inner) : Context fun program => outer (inner program) where
  send message next := by rw [hinner.send, houter.send]
  recv next := by rw [hinner.recv, houter.recv]
  ended program hended := houter.ended _ (hinner.ended _ hended)

/-- What is written in a context, the program writes. -/
theorem of_send {fill : Program In Out ε α → Program In Out ε β} (h : Context fill)
    {program : Program In Out ε α} {message : Out} {filled : Option ε → Program In Out ε β}
    (hfill : fill program = .send message filled) :
    ∃ next, program = .send message next ∧ filled = fun answer => fill (next answer) := by
  have hnot : ¬ program.Ended := by
    intro hended
    have hfilled := h.ended program hended
    rw [hfill] at hfilled
    exact hfilled
  cases program with
  | done value => exact absurd trivial hnot
  | raise exn => exact absurd trivial hnot
  | send other next =>
      rw [h.send] at hfill
      obtain ⟨rfl, rfl⟩ := Program.send.inj hfill
      exact ⟨next, rfl, rfl⟩
  | recv next =>
      rw [h.recv] at hfill
      cases hfill

/-- What is read in a context, the program reads. -/
theorem of_recv {fill : Program In Out ε α → Program In Out ε β} (h : Context fill)
    {program : Program In Out ε α} {filled : Except ε In → Program In Out ε β}
    (hfill : fill program = .recv filled) :
    ∃ next, program = .recv next ∧ filled = fun input => fill (next input) := by
  have hnot : ¬ program.Ended := by
    intro hended
    have hfilled := h.ended program hended
    rw [hfill] at hfilled
    exact hfilled
  cases program with
  | done value => exact absurd trivial hnot
  | raise exn => exact absurd trivial hnot
  | send other next =>
      rw [h.send] at hfill
      cases hfill
  | recv next =>
      rw [h.recv] at hfill
      obtain rfl := Program.recv.inj hfill
      exact ⟨next, rfl, rfl⟩

end Context

end Program

section Filled

variable {In Out ε α α' β β' : Type} {encode : Out → In}

/-- Both sides of a link in contexts, behind some messages on the wire. -/
def Link.fill (left : Program In Out ε α → Program In Out ε α') (right : Program In Out ε β → Program In Out ε β')
    (earlier : List Out) (link : Link In Out ε α β) : Link In Out ε α' β' :=
  { left := left link.left, right := right link.right, toLeft := link.toLeft, toRight := link.toRight,
    wire := earlier ++ link.wire }

variable {left : Program In Out ε α → Program In Out ε α'} {right : Program In Out ε β → Program In Out ε β'}
variable {earlier : List Out}

/-- A step is taken in contexts as it is without. -/
theorem LinkStep.fill (hleft : Program.Context left) (hright : Program.Context right)
    {link link' : Link In Out ε α β} (h : LinkStep encode link link') :
    LinkStep encode (link.fill left right earlier) (link'.fill left right earlier) := by
  cases h with
  | leftSend =>
      rw [Link.fill, Link.fill, hleft.send, ← List.append_assoc]
      exact .leftSend
  | rightSend =>
      rw [Link.fill, Link.fill, hright.send, ← List.append_assoc]
      exact .rightSend
  | leftRecv =>
      rw [Link.fill, Link.fill, hleft.recv]
      exact .leftRecv
  | rightRecv =>
      rw [Link.fill, Link.fill, hright.recv]
      exact .rightRecv

/-- What is taken in contexts is a step that is taken without. -/
theorem LinkStep.of_fill (hleft : Program.Context left) (hright : Program.Context right)
    {link : Link In Out ε α β} {filled : Link In Out ε α' β'}
    (h : LinkStep encode (link.fill left right earlier) filled) :
    ∃ link', LinkStep encode link link' ∧ filled = link'.fill left right earlier := by
  obtain ⟨leftProgram, rightProgram, toLeft, toRight, wire⟩ := link
  generalize hbefore : Link.fill left right earlier ⟨leftProgram, rightProgram, toLeft, toRight, wire⟩ =
    before at h
  cases h with
  | leftSend =>
      obtain ⟨hprogram, rfl, rfl, rfl, rfl⟩ := Link.mk.inj hbefore
      obtain ⟨next, rfl, rfl⟩ := hleft.of_send hprogram
      refine ⟨_, .leftSend, ?_⟩
      rw [Link.fill, List.append_assoc]
  | rightSend =>
      obtain ⟨rfl, hprogram, rfl, rfl, rfl⟩ := Link.mk.inj hbefore
      obtain ⟨next, rfl, rfl⟩ := hright.of_send hprogram
      refine ⟨_, .rightSend, ?_⟩
      rw [Link.fill, List.append_assoc]
  | leftRecv =>
      obtain ⟨hprogram, rfl, rfl, rfl, rfl⟩ := Link.mk.inj hbefore
      obtain ⟨next, rfl, rfl⟩ := hleft.of_recv hprogram
      exact ⟨_, .leftRecv, rfl⟩
  | rightRecv =>
      obtain ⟨rfl, hprogram, rfl, rfl, rfl⟩ := Link.mk.inj hbefore
      obtain ⟨next, rfl, rfl⟩ := hright.of_recv hprogram
      exact ⟨_, .rightRecv, rfl⟩

/-- A link whose sides stand in contexts refines the link without them. -/
theorem fill_refines (hleft : Program.Context left) (hright : Program.Context right) (earlier : List Out) :
    Refines (LinkStep encode) (LinkStep encode) (fun filled link => filled = link.fill left right earlier)
      (fun _ => 0) where
  step := by
    rintro _ filled link rfl hstep
    obtain ⟨link', hlink, rfl⟩ := hstep.of_fill hleft hright
    exact .inl ⟨link', hlink, rfl⟩
  alive := by
    rintro _ link link' rfl hstep
    exact ⟨_, hstep.fill hleft hright⟩

/-- Where two programs are bound to end, they are so in contexts. -/
theorem inevitable_fill (hleft : Program.Context left) (hright : Program.Context right) (earlier : List Out)
    {link done : Link In Out ε α β} (h : Inevitable (LinkStep encode) (· = done) link) :
    Inevitable (LinkStep encode) (· = done.fill left right earlier) (link.fill left right earlier) := by
  refine ((fill_refines hleft hright earlier).inevitable rfl h).mono ?_
  rintro _ ⟨_, rfl, rfl⟩
  rfl

/-- The left side reads while the right side does not write and has nothing to read. -/
theorem inevitable_leftRecv_idle {goal : Link In Out ε α β → Prop} {next : Except ε In → Program In Out ε α}
    {other : Program In Out ε β} {message : Out} {toLeft wire : List Out}
    (hidle : ∀ message next, other ≠ .send message next)
    (h : Inevitable (LinkStep encode) goal ⟨next (.ok (encode message)), other, toLeft, [], wire⟩) :
    Inevitable (LinkStep encode) goal ⟨.recv next, other, message :: toLeft, [], wire⟩ := by
  refine Inevitable.of_unique .leftRecv ?_ h
  intro u hu
  cases hu with
  | rightSend => exact absurd rfl (hidle _ _)
  | leftRecv => rfl

end Filled

end Interaction
