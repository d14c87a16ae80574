/-
Module: Priestly.Lib.Fanout
Layer: Lib
Purpose: Fan-out delivery by many senders at once. A sender's call fixes an audience and then serves its
  members one by one, while other senders serve theirs; a member that has failed may be skipped. In every
  run each member gets each call at most once, in the order of the sender's calls, and an unfailed member
  gets every call that has come to its end.
Imports: Mathlib relation closures, function update and sorted lists
Trusted boundary: none
Main exports: Fanout.State, Fanout.Step, Fanout.Sound, Fanout.sound, Fanout.pick
-/
import Mathlib.Data.List.Induction
import Mathlib.Data.List.Perm.Basic
import Mathlib.Data.List.Perm.Subperm
import Mathlib.Data.List.Sort
import Mathlib.Logic.Function.Basic
import Mathlib.Logic.Relation

namespace Fanout

open Function

variable {ι : Type}

/-- One call: who makes it and whom it is for. -/
structure Call (ι : Type) where
  sender : ι
  audience : List ι

/-- The state of the fan-out. A sender in a call carries the number of the call and the members still to
be served; every member has the log of the calls it was served, and `calls` are all calls made. -/
structure State (ι : Type) where
  task : ι → Option (Nat × List ι)
  log : ι → List Nat
  failed : ι → Bool
  calls : List (Call ι)

/-- The steps of the fan-out. -/
inductive Step [DecidableEq ι] : State ι → State ι → Prop where
  | call {s : State ι} {i : ι} {audience todo : List ι} (idle : s.task i = none)
      (nodup : audience.Nodup) (other : i ∉ audience) (order : todo.Perm audience) :
      Step s
        { s with
          task := update s.task i (some (s.calls.length, todo))
          calls := s.calls ++ [{ sender := i, audience }] }
  | serve {s : State ι} {i r : ι} {b : Nat} {todo : List ι} (busy : s.task i = some (b, r :: todo)) :
      Step s
        { s with
          task := update s.task i (some (b, todo))
          log := update s.log r (s.log r ++ [b]) }
  | skip {s : State ι} {i r : ι} {b : Nat} {todo : List ι} (busy : s.task i = some (b, r :: todo))
      (failed : s.failed r = true) :
      Step s { s with task := update s.task i (some (b, todo)) }
  | finish {s : State ι} {i : ι} {b : Nat} (busy : s.task i = some (b, [])) :
      Step s { s with task := update s.task i none }
  | fail {s : State ι} {r : ι} : Step s { s with failed := update s.failed r true }

/-- Nobody has called yet. -/
def State.start : State ι where
  task _ := none
  log _ := []
  failed _ := false
  calls := []

/-- A call is still being served to a member. -/
def State.Pending (s : State ι) (b : Nat) (r : ι) : Prop :=
  ∃ i todo, s.task i = some (b, todo) ∧ r ∈ todo

/-- Of two calls by one sender, the first was made before the second. -/
def Before (calls : List (Call ι)) (b b' : Nat) : Prop :=
  ∀ call call', calls[b]? = some call → calls[b']? = some call' →
    call.sender = call'.sender → b < b'

/-- What holds of a sender in call `b` with `todo` still to be served: the call is its own newest one,
and the members to be served belong to the audience and have not been served it. -/
structure Serving (s : State ι) (i : ι) (b : Nat) (todo : List ι) : Prop where
  call : ∃ call : Call ι, s.calls[b]? = some call ∧ call.sender = i ∧ ∀ r ∈ todo, r ∈ call.audience
  nodup : todo.Nodup
  unserved : ∀ r ∈ todo, b ∉ s.log r
  newest : ∀ b' call', s.calls[b']? = some call' → call'.sender = i → b' ≤ b

/-- What holds in every state. -/
structure Sound (s : State ι) : Prop where
  excluded : ∀ (b : Nat) (call : Call ι), s.calls[b]? = some call → call.sender ∉ call.audience
  addressed : ∀ r, ∀ b ∈ s.log r, ∃ call : Call ι, s.calls[b]? = some call ∧ r ∈ call.audience
  ordered : ∀ r, (s.log r).Pairwise (Before s.calls)
  serving : ∀ i b todo, s.task i = some (b, todo) → Serving s i b todo
  served : ∀ (b : Nat) (call : Call ι), s.calls[b]? = some call → ∀ r ∈ call.audience,
    s.failed r = true ∨ b ∈ s.log r ∨ s.Pending b r

/-- What is in a log stays where it is when more is appended. -/
theorem getElem?_append_of_some {α : Type} {calls : List α} {b : Nat} {call : α} (h : calls[b]? = some call)
    (more : List α) : (calls ++ more)[b]? = some call := by
  rw [List.getElem?_append_left (List.getElem?_eq_some_iff.mp h).1]
  exact h

/-- A lookup in the extended log finds an old call or the new one. -/
theorem getElem?_append_cases {calls : List (Call ι)} {new : Call ι} {b : Nat} {call : Call ι}
    (h : (calls ++ [new])[b]? = some call) :
    calls[b]? = some call ∨ (b = calls.length ∧ call = new) := by
  by_cases hlt : b < calls.length
  · rw [List.getElem?_append_left hlt] at h
    exact .inl h
  · rw [List.getElem?_append_right (Nat.le_of_not_lt hlt)] at h
    have hzero : b - calls.length = 0 := by
      have := (List.getElem?_eq_some_iff.mp h).1
      rw [List.length_singleton] at this
      omega
    rw [hzero] at h
    exact .inr ⟨by omega, (Option.some.inj h).symm⟩

namespace Sound

variable [DecidableEq ι] {s s' : State ι}

omit [DecidableEq ι] in
/-- A member is served a call at most once. -/
theorem log_nodup (h : Sound s) (r : ι) : (s.log r).Nodup := by
  apply (List.pairwise_iff_forall_sublist.mpr ?_)
  intro b b' hsub hsame
  have hbefore := List.pairwise_iff_forall_sublist.mp (h.ordered r) hsub
  obtain ⟨call, hcall, _⟩ := h.addressed r b (hsub.subset (by simp))
  rw [← hsame] at hbefore
  exact absurd (hbefore call call hcall hcall rfl) (Nat.lt_irrefl b)

omit [DecidableEq ι] in
/-- Before the first call. -/
theorem start : Sound (State.start : State ι) := by
  constructor
  · intro b call hcall
    cases hcall
  · intro r b hb
    cases hb
  · intro r
    exact List.Pairwise.nil
  · intro i b todo hbusy
    cases hbusy
  · intro b call hcall
    cases hcall

/-- A sender makes a call. -/
theorem call (h : Sound s) {i : ι} {audience todo : List ι} (idle : s.task i = none)
    (nodup : audience.Nodup) (other : i ∉ audience) (order : todo.Perm audience) :
    Sound { s with
      task := update s.task i (some (s.calls.length, todo))
      calls := s.calls ++ [{ sender := i, audience }] } := by
  have hlength : ∀ {b call}, s.calls[b]? = some call → b < s.calls.length :=
    fun hcall => (List.getElem?_eq_some_iff.mp hcall).1
  constructor
  · intro b call hcall
    rcases getElem?_append_cases hcall with hold | ⟨_, rfl⟩
    · exact h.excluded b call hold
    · exact other
  · intro r b hb
    obtain ⟨call, hcall, hr⟩ := h.addressed r b hb
    exact ⟨call, getElem?_append_of_some hcall _, hr⟩
  · intro r
    apply (h.ordered r).imp_of_mem
    intro b b' hb hb' hbefore call call' hcall hcall'
    -- Both calls are old, since the log holds no other.
    obtain ⟨old, hold, _⟩ := h.addressed r b hb
    obtain ⟨old', hold', _⟩ := h.addressed r b' hb'
    rw [getElem?_append_of_some hold] at hcall
    rw [getElem?_append_of_some hold'] at hcall'
    obtain rfl := Option.some.inj hcall
    obtain rfl := Option.some.inj hcall'
    exact hbefore old old' hold hold'
  · intro j b rest hbusy
    by_cases hj : j = i
    · subst hj
      simp only [update_self] at hbusy
      obtain ⟨rfl, rfl⟩ := Prod.mk.inj (Option.some.inj hbusy)
      constructor
      · exact ⟨{ sender := j, audience }, List.getElem?_concat_length, rfl,
          fun r hr => order.mem_iff.mp hr⟩
      · exact order.nodup_iff.mpr nodup
      · intro r _ hb
        obtain ⟨call, hcall, _⟩ := h.addressed r _ hb
        exact absurd (hlength hcall) (Nat.lt_irrefl _)
      · intro b' call' hcall' _
        rcases getElem?_append_cases hcall' with hold | ⟨rfl, _⟩
        · exact Nat.le_of_lt (hlength hold)
        · exact Nat.le_refl _
    · simp only [update_of_ne hj] at hbusy
      obtain ⟨⟨call, hcall, hsender, hmembers⟩, htodo, hunserved, hnewest⟩ := h.serving j b rest hbusy
      constructor
      · exact ⟨call, getElem?_append_of_some hcall _, hsender, hmembers⟩
      · exact htodo
      · exact hunserved
      · intro b' call' hcall' hsender'
        rcases getElem?_append_cases hcall' with hold | ⟨_, rfl⟩
        · exact hnewest b' call' hold hsender'
        · exact absurd hsender'.symm hj
  · intro b call hcall r hr
    rcases getElem?_append_cases hcall with hold | ⟨rfl, rfl⟩
    · rcases h.served b call hold r hr with hfailed | hlog | ⟨j, rest, hbusy, hmem⟩
      · exact .inl hfailed
      · exact .inr (.inl hlog)
      · have hj : j ≠ i := by
          rintro rfl
          rw [idle] at hbusy
          cases hbusy
        exact .inr (.inr ⟨j, rest, (update_of_ne hj _ _).trans hbusy, hmem⟩)
    · exact .inr (.inr ⟨i, todo, update_self i _ s.task, order.mem_iff.mpr hr⟩)

omit [DecidableEq ι] in
/-- What a sender still has to do keeps its properties when the next member is passed over. -/
private theorem serving_tail {i r : ι} {b : Nat} {todo : List ι} (h : Serving s i b (r :: todo)) :
    Serving s i b todo := by
  obtain ⟨⟨call, hcall, hsender, hmembers⟩, hnodup, hunserved, hnewest⟩ := h
  constructor
  · exact ⟨call, hcall, hsender, fun r' hr' => hmembers r' (List.mem_cons_of_mem r hr')⟩
  · exact (List.nodup_cons.mp hnodup).2
  · exact fun r' hr' => hunserved r' (List.mem_cons_of_mem r hr')
  · exact hnewest

/-- A sender skips a failed member. -/
theorem skip (h : Sound s) {i r : ι} {b : Nat} {todo : List ι}
    (busy : s.task i = some (b, r :: todo)) (failed : s.failed r = true) :
    Sound { s with task := update s.task i (some (b, todo)) } := by
  constructor
  · exact h.excluded
  · exact h.addressed
  · exact h.ordered
  · intro j b' rest hbusy
    have hserving : Serving s j b' rest := by
      by_cases hj : j = i
      · subst hj
        simp only [update_self] at hbusy
        obtain ⟨rfl, rfl⟩ := Prod.mk.inj (Option.some.inj hbusy)
        exact serving_tail (h.serving j b (r :: todo) busy)
      · simp only [update_of_ne hj] at hbusy
        exact h.serving j b' rest hbusy
    exact ⟨hserving.call, hserving.nodup, hserving.unserved, hserving.newest⟩
  · intro b' call hcall r' hr'
    rcases h.served b' call hcall r' hr' with hfailed | hlog | ⟨j, rest, hbusy, hmem⟩
    · exact .inl hfailed
    · exact .inr (.inl hlog)
    · by_cases hj : j = i
      · subst hj
        rw [busy] at hbusy
        obtain ⟨rfl, rfl⟩ := Prod.mk.inj (Option.some.inj hbusy)
        rcases List.mem_cons.mp hmem with rfl | hrest
        · exact .inl failed
        · exact .inr (.inr ⟨j, todo, update_self j _ s.task, hrest⟩)
      · exact .inr (.inr ⟨j, rest, (update_of_ne hj _ _).trans hbusy, hmem⟩)

/-- A sender serves a member. -/
theorem serve (h : Sound s) {i r : ι} {b : Nat} {todo : List ι}
    (busy : s.task i = some (b, r :: todo)) :
    Sound { s with
      task := update s.task i (some (b, todo))
      log := update s.log r (s.log r ++ [b]) } := by
  obtain ⟨⟨call, hcall, hsender, hmembers⟩, hnodup, hunserved, hnewest⟩ :=
    h.serving i b (r :: todo) busy
  have hmem : ∀ r' b', b' ∈ s.log r' → b' ∈ update s.log r (s.log r ++ [b]) r' := by
    intro r' b' hb'
    by_cases hr' : r' = r
    · subst hr'
      rw [update_self]
      exact List.mem_append_left _ hb'
    · rw [update_of_ne hr']
      exact hb'
  have hmem_cases : ∀ r' b', b' ∈ update s.log r (s.log r ++ [b]) r' →
      b' ∈ s.log r' ∨ (r' = r ∧ b' = b) := by
    intro r' b' hb'
    by_cases hr' : r' = r
    · subst hr'
      rw [update_self] at hb'
      rcases List.mem_append.mp hb' with hold | hnew
      · exact .inl hold
      · exact .inr ⟨rfl, List.mem_singleton.mp hnew⟩
    · rw [update_of_ne hr'] at hb'
      exact .inl hb'
  constructor
  · exact h.excluded
  · intro r' b' hb'
    rcases hmem_cases r' b' hb' with hold | ⟨rfl, rfl⟩
    · exact h.addressed r' b' hold
    · exact ⟨call, hcall, hmembers r' List.mem_cons_self⟩
  · intro r'
    by_cases hr' : r' = r
    · subst hr'
      simp only [update_self]
      apply List.pairwise_append.mpr
      refine ⟨h.ordered r', List.pairwise_singleton _ _, ?_⟩
      intro old hold new hnew
      obtain rfl := List.mem_singleton.mp hnew
      intro oldCall newCall holdCall hnewCall hsame
      -- The call served is the sender's newest, and this member has not been served it.
      obtain rfl := Option.some.inj (hcall.symm.trans hnewCall)
      have hle := hnewest old oldCall holdCall (hsame.trans hsender)
      have hne : old ≠ new := by
        rintro rfl
        exact hunserved r' List.mem_cons_self hold
      exact Nat.lt_of_le_of_ne hle hne
    · simp only [update_of_ne hr']
      exact h.ordered r'
  · intro j b' rest hbusy
    by_cases hj : j = i
    · subst hj
      simp only [update_self] at hbusy
      obtain ⟨rfl, rfl⟩ := Prod.mk.inj (Option.some.inj hbusy)
      have htail := serving_tail (h.serving j b (r :: todo) busy)
      refine ⟨htail.call, htail.nodup, ?_, htail.newest⟩
      intro r' hr' hserved
      rcases hmem_cases r' b hserved with hold | ⟨rfl, _⟩
      · exact htail.unserved r' hr' hold
      · exact (List.nodup_cons.mp hnodup).1 hr'
    · simp only [update_of_ne hj] at hbusy
      have hserving := h.serving j b' rest hbusy
      refine ⟨hserving.call, hserving.nodup, ?_, hserving.newest⟩
      intro r' hr' hserved
      rcases hmem_cases r' b' hserved with hold | ⟨_, rfl⟩
      · exact hserving.unserved r' hr' hold
      · obtain ⟨call', hcall', hsender', _⟩ := hserving.call
        obtain rfl := Option.some.inj (hcall.symm.trans hcall')
        exact hj (hsender'.symm.trans hsender)
  · intro b' call' hcall' r' hr'
    by_cases hserved : b' ∈ update s.log r (s.log r ++ [b]) r'
    · exact .inr (.inl hserved)
    · rcases h.served b' call' hcall' r' hr' with hfailed | hlog | ⟨j, rest, hbusy, hrest⟩
      · exact .inl hfailed
      · exact absurd (hmem r' b' hlog) hserved
      · right
        right
        by_cases hj : j = i
        · subst hj
          rw [busy] at hbusy
          obtain ⟨rfl, rfl⟩ := Prod.mk.inj (Option.some.inj hbusy)
          rcases List.mem_cons.mp hrest with rfl | htodo
          · exact absurd (by rw [update_self]; simp) hserved
          · exact ⟨j, todo, update_self j _ s.task, htodo⟩
        · exact ⟨j, rest, (update_of_ne hj _ _).trans hbusy, hrest⟩

/-- A call comes to its end. -/
theorem finish (h : Sound s) {i : ι} {b : Nat} (busy : s.task i = some (b, [])) :
    Sound { s with task := update s.task i none } := by
  constructor
  · exact h.excluded
  · exact h.addressed
  · exact h.ordered
  · intro j b' rest hbusy
    have hj : j ≠ i := by
      rintro rfl
      simp only [update_self] at hbusy
      cases hbusy
    simp only [update_of_ne hj] at hbusy
    have hserving := h.serving j b' rest hbusy
    exact ⟨hserving.call, hserving.nodup, hserving.unserved, hserving.newest⟩
  · intro b' call hcall r hr
    rcases h.served b' call hcall r hr with hfailed | hlog | ⟨j, rest, hbusy, hmem⟩
    · exact .inl hfailed
    · exact .inr (.inl hlog)
    · have hj : j ≠ i := by
        rintro rfl
        rw [busy] at hbusy
        obtain ⟨_, rfl⟩ := Prod.mk.inj (Option.some.inj hbusy)
        cases hmem
      exact .inr (.inr ⟨j, rest, (update_of_ne hj _ _).trans hbusy, hmem⟩)

/-- A member fails. -/
theorem fail (h : Sound s) (r : ι) : Sound { s with failed := update s.failed r true } := by
  constructor
  · exact h.excluded
  · exact h.addressed
  · exact h.ordered
  · intro j b rest hbusy
    have hserving := h.serving j b rest hbusy
    exact ⟨hserving.call, hserving.nodup, hserving.unserved, hserving.newest⟩
  · intro b call hcall r' hr'
    rcases h.served b call hcall r' hr' with hfailed | hlog | hpending
    · left
      by_cases hr : r' = r
      · rw [hr]
        exact update_self r _ s.failed
      · exact (update_of_ne hr _ _).trans hfailed
    · exact .inr (.inl hlog)
    · exact .inr (.inr hpending)

omit [DecidableEq ι] in
/-- All members fail. -/
theorem fail_all (h : Sound s) : Sound { s with failed := fun _ => true } := by
  constructor
  · exact h.excluded
  · exact h.addressed
  · exact h.ordered
  · intro j b rest hbusy
    have hserving := h.serving j b rest hbusy
    exact ⟨hserving.call, hserving.nodup, hserving.unserved, hserving.newest⟩
  · intro b call hcall r hr
    exact .inl rfl

/-- Every step keeps the state sound. -/
theorem step (h : Sound s) (hstep : Step s s') : Sound s' := by
  cases hstep with
  | call idle nodup other order => exact h.call idle nodup other order
  | serve busy => exact h.serve busy
  | skip busy failed => exact h.skip busy failed
  | finish busy => exact h.finish busy
  | fail => exact h.fail _

end Sound

/-- Every run keeps the state sound. -/
theorem sound [DecidableEq ι] {s : State ι} (h : Relation.ReflTransGen Step State.start s) : Sound s := by
  induction h with
  | refl => exact Sound.start
  | tail _ hstep ih => exact ih.step hstep

/-! ### The entries of a log by their numbers -/

section Pick

variable {α : Type}

/-- The entries with these numbers. -/
def pick (entries : List α) (numbers : List Nat) : List α := numbers.filterMap (entries[·]?)

/-- All entries, by all numbers. -/
theorem pick_range (entries : List α) : pick entries (List.range entries.length) = entries := by
  induction entries using List.reverseRecOn with
  | nil => rfl
  | append_singleton entries entry ih =>
      have hlast : (entries ++ [entry])[entries.length]? = some entry := by simp
      have hinit : (List.range entries.length).filterMap ((entries ++ [entry])[·]?) =
          (List.range entries.length).filterMap (entries[·]?) := by
        apply List.filterMap_congr
        intro number hnumber
        exact List.getElem?_append_left (List.mem_range.mp hnumber)
      rw [List.length_append, List.length_singleton, List.range_succ, pick, List.filterMap_append, hinit, ← pick,
        ih, List.filterMap_cons_some hlast]
      rfl

/-- A condition on the entries is one on their numbers. -/
theorem filter_pick (entries : List α) (numbers : List Nat) (p : α → Bool) :
    (pick entries numbers).filter p = pick entries (numbers.filter fun number => entries[number]?.any p) := by
  induction numbers with
  | nil => rfl
  | cons number numbers ih =>
      rw [pick] at ih ⊢
      cases hentry : entries[number]? with
      | none =>
          rw [List.filterMap_cons_none hentry, ih, List.filter_cons_of_neg (by simp [hentry])]
      | some entry =>
          rw [List.filterMap_cons_some hentry]
          cases hp : p entry with
          | true =>
              rw [List.filter_cons_of_pos hp, ih, List.filter_cons_of_pos (by simp [hentry, hp]), pick, pick,
                List.filterMap_cons_some hentry]
          | false =>
              rw [List.filter_cons_of_neg (by simp [hp]), ih, List.filter_cons_of_neg (by simp [hentry, hp])]

/-- Numbers in increasing order pick the entries in their order, each at most once. -/
theorem pick_sublist {entries : List α} {numbers : List Nat} (hincreasing : numbers.Pairwise (· < ·))
    (hbound : ∀ number ∈ numbers, number < entries.length) : (pick entries numbers).Sublist entries := by
  have hsub : numbers.Sublist (List.range entries.length) := by
    have hnodup : numbers.Nodup := hincreasing.imp Nat.ne_of_lt
    have hsubset : numbers ⊆ List.range entries.length := fun number hnumber =>
      List.mem_range.mpr (hbound number hnumber)
    exact List.sublist_of_subperm_of_pairwise (hnodup.subperm hsubset) hincreasing List.pairwise_lt_range
  have hpick := hsub.filterMap (entries[·]?)
  rw [← pick, ← pick, pick_range] at hpick
  exact hpick

/-- Different numbers, which are those of the entries with a property, pick these entries, each once. -/
theorem pick_perm {entries : List α} {numbers : List Nat} {p : α → Bool} (hnodup : numbers.Nodup)
    (hiff : ∀ number, number ∈ numbers ↔ ∃ entry, entries[number]? = some entry ∧ p entry = true) :
    (pick entries numbers).Perm (entries.filter p) := by
  have hnumbers : numbers.Perm ((List.range entries.length).filter fun number => entries[number]?.any p) := by
    apply (List.perm_ext_iff_of_nodup hnodup (List.nodup_range.filter _)).mpr
    intro number
    rw [hiff, List.mem_filter, List.mem_range, Option.any_eq_true]
    constructor
    · rintro ⟨entry, hentry, hp⟩
      exact ⟨(List.getElem?_eq_some_iff.mp hentry).1, entry, hentry, hp⟩
    · rintro ⟨_, entry, hentry, hp⟩
      exact ⟨entry, hentry, hp⟩
  have hpick := hnumbers.filterMap (entries[·]?)
  rw [← pick, ← pick, ← filter_pick, pick_range] at hpick
  exact hpick

variable {s : State ι} {entries : List α} {call : α → Call ι}

/-- A member that is served an entry is in its audience. -/
theorem Sound.mem_pick (h : Sound s) (hcalls : s.calls = entries.map call) {r : ι} {numbers : List Nat}
    (hserved : ∀ number ∈ numbers, number ∈ s.log r) {entry : α} (hentry : entry ∈ pick entries numbers) :
    r ∈ (call entry).audience := by
  obtain ⟨number, hnumber, hlogged⟩ := List.mem_filterMap.mp hentry
  have hmade : s.calls[number]? = some (call entry) := by
    rw [hcalls, List.getElem?_map, hlogged]
    rfl
  obtain ⟨made, hfound, hr⟩ := h.addressed r number (hserved number hnumber)
  rw [hmade] at hfound
  rw [Option.some.inj hfound]
  exact hr

/-- What a member is served by one sender are entries of the sender, in the order they were made. -/
theorem Sound.pick_of_sender [DecidableEq ι] (h : Sound s) (hcalls : s.calls = entries.map call) {r : ι}
    {numbers : List Nat} (hserved : numbers.Sublist (s.log r)) (i : ι) :
    ((pick entries numbers).filter fun entry => (call entry).sender = i).Sublist
      (entries.filter fun entry => (call entry).sender = i) := by
  have hmade : ∀ {number : Nat} {entry : α}, entries[number]? = some entry →
      s.calls[number]? = some (call entry) := by
    intro number entry hentry
    rw [hcalls, List.getElem?_map, hentry]
    rfl
  have hpicked : ((pick entries numbers).filter fun entry => (call entry).sender = i).Sublist entries := by
    rw [filter_pick]
    have hby : ∀ number ∈ numbers.filter (fun number => entries[number]?.any fun entry => (call entry).sender = i),
        ∃ entry, entries[number]? = some entry ∧ (call entry).sender = i := by
      intro number hnumber
      obtain ⟨entry, hentry, hsender⟩ := (Option.any_eq_true ..).mp (List.mem_filter.mp hnumber).2
      exact ⟨entry, hentry, of_decide_eq_true hsender⟩
    apply pick_sublist
    · apply List.pairwise_iff_forall_sublist.mpr
      intro b b' hpair
      obtain ⟨entry, hentry, hsender⟩ := hby b (hpair.subset (by simp))
      obtain ⟨entry', hentry', hsender'⟩ := hby b' (hpair.subset (by simp))
      have horder := List.pairwise_iff_forall_sublist.mp (h.ordered r)
        ((hpair.trans List.filter_sublist).trans hserved)
      exact horder _ _ (hmade hentry) (hmade hentry') (hsender.trans hsender'.symm)
    · intro number hnumber
      obtain ⟨entry, hentry, _⟩ := hby number hnumber
      exact (List.getElem?_eq_some_iff.mp hentry).1
  have hfilter := hpicked.filter fun entry => (call entry).sender = i
  rw [List.filter_filter] at hfilter
  simpa only [Bool.and_self] using hfilter

end Pick

end Fanout
