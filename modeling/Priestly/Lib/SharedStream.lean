/-
Module: Priestly.Lib.SharedStream
Layer: Lib
Purpose: A stream that many writers append to. Each writes blocks in pieces of any size. When nobody
  writes a piece while another writer has a block partly written, the stream is at all times a
  concatenation of complete blocks followed by the beginning of one.
Imports: Mathlib function update
Trusted boundary: none
Main exports: SharedStream.State, SharedStream.Step, SharedStream.Whole, SharedStream.whole
-/
import Mathlib.Logic.Function.Basic
import Mathlib.Logic.Relation

namespace SharedStream

open Function

variable {ι α : Type}

/-- The stream, what each writer has written of its block and what is left of it, and whether the stream
still takes anything. -/
structure State (ι α : Type) where
  stream : List α
  job : ι → Option (List α × List α)
  dead : Bool

/-- The writer has written a part of its block, but not all of it. -/
def State.Partway (s : State ι α) (i : ι) : Prop :=
  ∃ written rest, s.job i = some (written, rest) ∧ written ≠ [] ∧ rest ≠ []

/-- The steps of the writers. -/
inductive Step [DecidableEq ι] (IsBlock : List α → Prop) : State ι α → State ι α → Prop where
  | start {s : State ι α} {i : ι} {block : List α} (idle : s.job i = none) (whole : IsBlock block) :
      Step IsBlock s { s with job := update s.job i (some ([], block)) }
  | write {s : State ι α} {i : ι} {written part rest : List α}
      (busy : s.job i = some (written, part ++ rest)) (nonempty : part ≠ []) (alive : s.dead = false)
      (alone : ∀ j, j ≠ i → ¬ s.Partway j) :
      Step IsBlock s
        { s with
          stream := s.stream ++ part
          job := update s.job i (some (written ++ part, rest)) }
  | done {s : State ι α} {i : ι} {written : List α} (busy : s.job i = some (written, [])) :
      Step IsBlock s { s with job := update s.job i none }
  | abandon {s : State ι α} {i : ι} (failed : s.dead = true) :
      Step IsBlock s { s with job := update s.job i none }
  | fail {s : State ι α} : Step IsBlock s { s with dead := true }

/-- Nobody has written yet. -/
def State.start : State ι α where
  stream := []
  job _ := none
  dead := false

/-- Complete blocks, followed by at most the beginning of one. -/
def Whole (IsBlock : List α → Prop) (stream : List α) : Prop :=
  ∃ (blocks : List (List α)) (tail : List α), (∀ block ∈ blocks, IsBlock block) ∧
    stream = blocks.flatten ++ tail ∧
    (tail = [] ∨ ∃ block, IsBlock block ∧ tail <+: block)

/-- What is written of the block that is partly written, if there is one. -/
def State.Current (s : State ι α) (tail : List α) : Prop :=
  (tail = [] ∧ ∀ i, ¬ s.Partway i) ∨
    ∃ i rest, s.job i = some (tail, rest) ∧ tail ≠ [] ∧ rest ≠ [] ∧ ∀ j, j ≠ i → ¬ s.Partway j

/-- What holds in every state. -/
structure Sound (IsBlock : List α → Prop) (s : State ι α) : Prop where
  valid : ∀ i written rest, s.job i = some (written, rest) → IsBlock (written ++ rest)
  whole : Whole IsBlock s.stream
  current : s.dead = false → ∃ (blocks : List (List α)) (tail : List α),
    (∀ block ∈ blocks, IsBlock block) ∧ s.stream = blocks.flatten ++ tail ∧ s.Current tail

section

variable {IsBlock : List α → Prop} {s s' : State ι α} {i : ι}

/-- A writer with nothing written, or nothing left to write, is not partway. -/
theorem not_partway {written rest : List α} (hjob : s.job i = some (written, rest))
    (h : written = [] ∨ rest = []) : ¬ s.Partway i := by
  rintro ⟨written', rest', hjob', hwritten, hrest⟩
  obtain ⟨rfl, rfl⟩ := Prod.mk.inj (Option.some.inj (hjob.symm.trans hjob'))
  rcases h with hempty | hempty
  · exact hwritten hempty
  · exact hrest hempty

/-- A writer without a block is not partway. -/
theorem not_partway_of_idle (hjob : s.job i = none) : ¬ s.Partway i := by
  rintro ⟨written, rest, hjob', _⟩
  rw [hjob] at hjob'
  cases hjob'

/-- A stream that continues with the current block is whole. -/
theorem whole_of_current {blocks : List (List α)} {tail : List α}
    (hvalid : ∀ i written rest, s.job i = some (written, rest) → IsBlock (written ++ rest))
    (hblocks : ∀ block ∈ blocks, IsBlock block) (hstream : s.stream = blocks.flatten ++ tail)
    (hcurrent : s.Current tail) : Whole IsBlock s.stream := by
  refine ⟨blocks, tail, hblocks, hstream, ?_⟩
  rcases hcurrent with ⟨hempty, _⟩ | ⟨i, rest, hjob, _⟩
  · exact .inl hempty
  · exact .inr ⟨tail ++ rest, hvalid i tail rest hjob, List.prefix_append tail rest⟩

/-- The current block of a writer that is about to write, when it writes alone, is its own. -/
theorem Sound.before_write (h : Sound IsBlock s) (halive : s.dead = false) {written rest : List α}
    (hjob : s.job i = some (written, rest)) (hrest : rest ≠ [])
    (halone : ∀ j, j ≠ i → ¬ s.Partway j) :
    ∃ blocks : List (List α), (∀ block ∈ blocks, IsBlock block) ∧
      s.stream = blocks.flatten ++ written := by
  obtain ⟨blocks, tail, hblocks, hstream, hcurrent⟩ := h.current halive
  refine ⟨blocks, hblocks, ?_⟩
  rcases hcurrent with ⟨hempty, hnobody⟩ | ⟨k, rest', hjob', htail, hrest', _⟩
  · have hwritten : written = [] := by
      by_contra hne
      exact hnobody i ⟨written, rest, hjob, hne, hrest⟩
    rw [hstream, hempty, hwritten]
  · by_cases hki : k = i
    · rw [hki] at hjob'
      obtain ⟨rfl, _⟩ := Prod.mk.inj (Option.some.inj (hjob.symm.trans hjob'))
      exact hstream
    · exact absurd ⟨tail, rest', hjob', htail, hrest'⟩ (halone k hki)

variable [DecidableEq ι]

/-- Where a writer that is not partway goes on to a job in which it is not, nobody else changes. -/
theorem partway_iff_of_update {job : Option (List α × List α)} (hjob : s'.job = update s.job i job)
    (hold : ¬ s.Partway i) (hnew : ¬ s'.Partway i) (j : ι) : s'.Partway j ↔ s.Partway j := by
  by_cases hj : j = i
  · rw [hj]
    exact ⟨fun h => absurd h hnew, fun h => absurd h hold⟩
  · unfold State.Partway
    rw [hjob, update_of_ne hj]

/-- The current block stays the current one. -/
theorem State.Current.frame {job : Option (List α × List α)} {tail : List α} (h : s.Current tail)
    (hjob : s'.job = update s.job i job) (hold : ¬ s.Partway i) (hnew : ¬ s'.Partway i) :
    s'.Current tail := by
  have hsame := partway_iff_of_update hjob hold hnew
  rcases h with ⟨hempty, hnobody⟩ | ⟨k, rest, hcurrent, htail, hrest, hothers⟩
  · exact .inl ⟨hempty, fun j hj => hnobody j ((hsame j).mp hj)⟩
  · have hki : k ≠ i := by
      rintro rfl
      exact hold ⟨tail, rest, hcurrent, htail, hrest⟩
    right
    refine ⟨k, rest, ?_, htail, hrest, fun j hj hpartway => hothers j hj ((hsame j).mp hpartway)⟩
    rw [hjob, update_of_ne hki]
    exact hcurrent

/-- The blocks in progress stay valid when a writer takes on a valid one. -/
theorem valid_update {job : Option (List α × List α)}
    (hvalid : ∀ i written rest, s.job i = some (written, rest) → IsBlock (written ++ rest))
    (hnew : ∀ written rest, job = some (written, rest) → IsBlock (written ++ rest)) :
    ∀ j written rest, update s.job i job j = some (written, rest) → IsBlock (written ++ rest) := by
  intro j written rest hj
  by_cases hji : j = i
  · rw [hji, update_self] at hj
    exact hnew written rest hj
  · rw [update_of_ne hji] at hj
    exact hvalid j written rest hj

/-- Every step keeps the stream sound. -/
theorem Sound.step (h : Sound IsBlock s) (hstep : Step IsBlock s s') : Sound IsBlock s' := by
  cases hstep with
  | @start i block idle whole =>
      constructor
      · apply valid_update h.valid
        intro written rest hjob
        obtain ⟨rfl, rfl⟩ := Prod.mk.inj (Option.some.inj hjob)
        exact whole
      · exact h.whole
      · intro halive
        obtain ⟨blocks, tail, hblocks, hstream, hcurrent⟩ := h.current halive
        refine ⟨blocks, tail, hblocks, hstream, hcurrent.frame rfl (not_partway_of_idle idle) ?_⟩
        exact not_partway (update_self i _ s.job) (.inl rfl)
  | @write i written part rest busy nonempty alive alone =>
      have hrest : part ++ rest ≠ [] := by
        intro hempty
        exact nonempty (List.append_eq_nil_iff.mp hempty).1
      obtain ⟨blocks, hblocks, hstream⟩ := h.before_write alive busy hrest alone
      have hblock : IsBlock ((written ++ part) ++ rest) := by
        rw [List.append_assoc]
        exact h.valid i written (part ++ rest) busy
      have hvalid : ∀ j written' rest', update s.job i (some (written ++ part, rest)) j =
          some (written', rest') → IsBlock (written' ++ rest') := by
        apply valid_update h.valid
        intro written' rest' hjob
        obtain ⟨rfl, rfl⟩ := Prod.mk.inj (Option.some.inj hjob)
        exact hblock
      have hlonger : s.stream ++ part = blocks.flatten ++ (written ++ part) := by
        rw [hstream, List.append_assoc]
      have hothers : ∀ j, j ≠ i → ¬ State.Partway { s with
          stream := s.stream ++ part
          job := update s.job i (some (written ++ part, rest)) } j := by
        rintro j hj ⟨written', rest', hjob, hpartway⟩
        simp only [update_of_ne hj] at hjob
        exact alone j hj ⟨written', rest', hjob, hpartway⟩
      have hcurrent : ∃ (blocks : List (List α)) (tail : List α), (∀ block ∈ blocks, IsBlock block) ∧
          s.stream ++ part = blocks.flatten ++ tail ∧ State.Current { s with
            stream := s.stream ++ part
            job := update s.job i (some (written ++ part, rest)) } tail := by
        by_cases hdone : rest = []
        · refine ⟨blocks ++ [written ++ part], [], ?_, ?_, .inl ⟨rfl, ?_⟩⟩
          · intro block hmem
            rcases List.mem_append.mp hmem with hold | hnew
            · exact hblocks block hold
            · rw [List.mem_singleton.mp hnew]
              rw [hdone, List.append_nil] at hblock
              exact hblock
          · rw [hlonger, List.flatten_append, List.append_nil, List.flatten_singleton]
          · intro j
            by_cases hj : j = i
            · rw [hj]
              exact not_partway (update_self i _ s.job) (.inr hdone)
            · exact hothers j hj
        · refine ⟨blocks, written ++ part, hblocks, hlonger, .inr ⟨i, rest, ?_, ?_, hdone, hothers⟩⟩
          · exact update_self i _ s.job
          · intro hempty
            exact nonempty (List.append_eq_nil_iff.mp hempty).2
      obtain ⟨blocks', tail, hblocks', hstream', hcurrent'⟩ := hcurrent
      constructor
      · exact hvalid
      · exact whole_of_current hvalid hblocks' hstream' hcurrent'
      · exact fun _ => ⟨blocks', tail, hblocks', hstream', hcurrent'⟩
  | @done i written busy =>
      constructor
      · exact valid_update h.valid nofun
      · exact h.whole
      · intro halive
        obtain ⟨blocks, tail, hblocks, hstream, hcurrent⟩ := h.current halive
        refine ⟨blocks, tail, hblocks, hstream, hcurrent.frame rfl (not_partway busy (.inr rfl)) ?_⟩
        exact not_partway_of_idle (update_self i _ s.job)
  | abandon failed =>
      constructor
      · exact valid_update h.valid nofun
      · exact h.whole
      · intro halive
        rw [failed] at halive
        cases halive
  | fail =>
      constructor
      · exact h.valid
      · exact h.whole
      · nofun

/-- In every run the stream is whole. -/
theorem whole (hrun : Relation.ReflTransGen (Step IsBlock) State.start s) : Whole IsBlock s.stream := by
  have hsound : Sound IsBlock s := by
    induction hrun with
    | refl =>
        constructor
        · nofun
        · exact ⟨[], [], nofun, rfl, .inl rfl⟩
        · intro _
          refine ⟨[], [], nofun, rfl, .inl ⟨rfl, ?_⟩⟩
          intro i
          exact not_partway_of_idle rfl
    | tail _ hstep ih => exact ih.step hstep
  exact hsound.whole

end

end SharedStream
