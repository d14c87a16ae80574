/-
Module: Priestly.Lib.EventRuns
Layer: Lib
Purpose: Runs of a machine that takes one event after the other, where an event may be impossible. Two rules
  carry an exact condition on single steps over to runs: for a property that a bad step spoils for good, and
  for one that is asked of every state on the way.
Imports: none
Trusted boundary: none
Main exports: EventRuns.run, EventRuns.Each, EventRuns.Throughout, EventRuns.run_iff, EventRuns.throughout_iff
-/

namespace Priestly

namespace EventRuns

variable {σ ε : Type} (step : σ → ε → Option σ)

/-- The events of a list in turn. -/
def run : List ε → σ → Option σ
  | [], state => some state
  | event :: events, state => (step state event).bind (run events)

/-- What holds of every event of a run, and the state it finds. -/
def Each (good : σ → ε → Prop) : List ε → σ → Prop
  | [], _ => True
  | event :: events, state =>
      good state event ∧ ∀ next, step state event = some next → Each good events next

/-- What holds of every state of a run. -/
def Throughout (holds : σ → Prop) : List ε → σ → Prop
  | [], state => holds state
  | event :: events, state =>
      holds state ∧ ∀ next, step state event = some next → Throughout holds events next

variable {step}

/-- Two runs behind one another. -/
theorem run_append {first second : List ε} {state middle last : σ} (hfirst : run step first state = some middle)
    (hsecond : run step second middle = some last) : run step (first ++ second) state = some last := by
  induction first generalizing state with
  | nil =>
      obtain rfl := Option.some.inj hfirst
      exact hsecond
  | cons event events ih =>
      obtain ⟨next, hnext, hrest⟩ := Option.bind_eq_some_iff.mp hfirst
      exact Option.bind_eq_some_iff.mpr ⟨next, hnext, ih hrest⟩

/-- What holds of every event of two runs behind one another. -/
theorem each_append {good : σ → ε → Prop} {first second : List ε} {state middle : σ}
    (hfirst : run step first state = some middle) (hgood : Each step good first state)
    (hsecond : Each step good second middle) : Each step good (first ++ second) state := by
  induction first generalizing state with
  | nil =>
      obtain rfl := Option.some.inj hfirst
      exact hsecond
  | cons event events ih =>
      obtain ⟨next, hnext, hrest⟩ := Option.bind_eq_some_iff.mp hfirst
      refine ⟨hgood.1, ?_⟩
      intro other hother
      obtain rfl := Option.some.inj (hnext.symm.trans hother)
      exact ih hrest (hgood.2 next hnext)

/-- One event. -/
theorem each_single {good : σ → ε → Prop} {event : ε} {state : σ} (h : good state event) :
    Each step good [event] state := ⟨h, fun _ _ => trivial⟩

/-- A property that a step keeps when, and only when, the step is good: it holds at the end of a run when it
held at the start and every step was good. -/
theorem run_iff {invariant holds : σ → Prop} {allowed good : σ → ε → Prop}
    (hstep : ∀ {state event next}, invariant state → allowed state event → step state event = some next →
      invariant next ∧ (holds next ↔ holds state ∧ good state event))
    {events : List ε} {state last : σ} (hrun : run step events state = some last)
    (hinvariant : invariant state) (hallowed : Each step allowed events state) :
    invariant last ∧ (holds last ↔ holds state ∧ Each step good events state) := by
  induction events generalizing state with
  | nil =>
      obtain rfl := Option.some.inj hrun
      exact ⟨hinvariant, fun h => ⟨h, trivial⟩, fun h => h.1⟩
  | cons event events ih =>
      obtain ⟨next, hnext, hrest⟩ := Option.bind_eq_some_iff.mp hrun
      obtain ⟨hhere, hlater⟩ := hallowed
      obtain ⟨hkept, hiff⟩ := hstep hinvariant hhere hnext
      obtain ⟨hend, hlast⟩ := ih hrest hkept (hlater next hnext)
      refine ⟨hend, ?_⟩
      rw [hlast, hiff]
      constructor
      · rintro ⟨⟨hstart, hgood⟩, heach⟩
        refine ⟨hstart, hgood, ?_⟩
        intro other hother
        obtain rfl := Option.some.inj (hnext.symm.trans hother)
        exact heach
      · rintro ⟨hstart, hgood, heach⟩
        exact ⟨⟨hstart, hgood⟩, heach next hnext⟩

/-- A property that a step keeps when, and only when, the step is good, while it has held so far: it holds of
every state of a run when every step is good. -/
theorem throughout_iff {invariant holds : σ → Prop} {good : σ → ε → Prop}
    (hstep : ∀ {state event next}, invariant state → holds state → step state event = some next →
      invariant next ∧ (holds next ↔ good state event))
    (himpossible : ∀ {state event}, step state event = none → good state event)
    (events : List ε) {state : σ} (hinvariant : invariant state) (hholds : holds state) :
    Throughout step holds events state ↔ Each step good events state := by
  induction events generalizing state with
  | nil => exact ⟨fun _ => trivial, fun _ => hholds⟩
  | cons event events ih =>
      cases hnext : step state event with
      | none =>
          constructor
          · intro _
            refine ⟨himpossible hnext, ?_⟩
            intro next hsome
            rw [hnext] at hsome
            cases hsome
          · intro _
            refine ⟨hholds, ?_⟩
            intro next hsome
            rw [hnext] at hsome
            cases hsome
      | some next =>
          obtain ⟨hkept, hiff⟩ := hstep hinvariant hholds hnext
          constructor
          · rintro ⟨_, hlater⟩
            have hthroughout := hlater next hnext
            have hhere : holds next := by
              cases events with
              | nil => exact hthroughout
              | cons _ _ => exact hthroughout.1
            refine ⟨hiff.mp hhere, ?_⟩
            intro other hother
            obtain rfl := Option.some.inj (hnext.symm.trans hother)
            exact (ih hkept hhere).mp hthroughout
          · rintro ⟨hgood, hlater⟩
            refine ⟨hholds, ?_⟩
            intro other hother
            obtain rfl := Option.some.inj (hnext.symm.trans hother)
            exact (ih hkept (hiff.mpr hgood)).mpr (hlater next hnext)

end EventRuns

end Priestly
