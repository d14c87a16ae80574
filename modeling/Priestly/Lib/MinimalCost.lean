/-
Module: Priestly.Lib.MinimalCost
Layer: Lib
Purpose: Weighted code lengths that satisfy the inequality of Kraft never cost less than merging the two
  smallest weights over and over. Prefix-free codes satisfy the inequality.
Imports: Mathlib on coding and sorting
Trusted boundary: none
Main exports: MinimalCost.kraftSum, MinimalCost.kraft_of_prefixFree, MinimalCost.cost, MinimalCost.mergeCost,
  MinimalCost.mergeCost_le_cost
-/
import Mathlib.Algebra.BigOperators.Group.List.Basic
import Mathlib.Algebra.Order.Ring.Unbundled.Basic
import Mathlib.Data.List.Sort
import Mathlib.InformationTheory.Coding.KraftMcMillan
import Mathlib.Tactic.Linarith
import Mathlib.Tactic.Ring

namespace MinimalCost

/-! ### The inequality of Kraft -/

/-- The Kraft sum of code lengths over two digits. -/
noncomputable def kraftSum (lengths : List Nat) : ℝ := (lengths.map fun length => (1 / 2 : ℝ) ^ length).sum

theorem kraftSum_cons (length : Nat) (lengths : List Nat) :
    kraftSum (length :: lengths) = (1 / 2 : ℝ) ^ length + kraftSum lengths := by
  rw [kraftSum, List.map_cons, List.sum_cons, kraftSum]

theorem kraftSum_nonneg (lengths : List Nat) : 0 ≤ kraftSum lengths := by
  apply List.sum_nonneg
  intro term hterm
  obtain ⟨length, _, rfl⟩ := List.mem_map.mp hterm
  positivity

theorem kraftSum_perm {lengths lengths' : List Nat} (h : lengths.Perm lengths') :
    kraftSum lengths = kraftSum lengths' := (h.map _).sum_eq

section PrefixFree

open InformationTheory

variable {α : Type}

/-- Words none of which begins another one can be told apart in a row. -/
theorem uniquelyDecodable_of_prefixFree {words : Set (List α)}
    (hfree : ∀ first ∈ words, ∀ second ∈ words, first <+: second → first = second) (hne : [] ∉ words) :
    UniquelyDecodable words := by
  intro firsts
  induction firsts with
  | nil =>
      intro seconds _ hseconds hflatten
      cases seconds with
      | nil => rfl
      | cons second seconds =>
          have hnil : second = [] := (List.append_eq_nil_iff.mp hflatten.symm).1
          exact absurd (hnil ▸ hseconds second List.mem_cons_self) hne
  | cons first firsts ih =>
      intro seconds hfirsts hseconds hflatten
      have hfirst := hfirsts first List.mem_cons_self
      cases seconds with
      | nil =>
          have hnil : first = [] := (List.append_eq_nil_iff.mp hflatten).1
          exact absurd (hnil ▸ hfirst) hne
      | cons second seconds =>
          have hsecond := hseconds second List.mem_cons_self
          rw [List.flatten_cons, List.flatten_cons] at hflatten
          have hsame : first = second := by
            rcases List.prefix_or_prefix_of_prefix (List.prefix_append first firsts.flatten)
              (hflatten ▸ List.prefix_append second seconds.flatten) with hbegins | hbegins
            · exact hfree first hfirst second hsecond hbegins
            · exact (hfree second hsecond first hfirst hbegins).symm
          subst hsame
          rw [ih seconds (fun word hword => hfirsts word (List.mem_cons_of_mem _ hword))
            (fun word hword => hseconds word (List.mem_cons_of_mem _ hword)) (List.append_cancel_left hflatten)]

/-- The lengths of at least two words, none of which begins another one, satisfy the inequality. -/
theorem kraft_of_prefixFree {words : List (List Bool)}
    (hfree : words.Pairwise fun first second => ¬ first <+: second ∧ ¬ second <+: first)
    (htwo : 2 ≤ words.length) : kraftSum (words.map List.length) ≤ 1 := by
  have hnodup : words.Nodup := by
    apply hfree.imp
    intro first second h hsame
    exact h.1 (hsame ▸ List.prefix_refl _)
  have hdistinct : ∀ first ∈ words, ∀ second ∈ words, first <+: second → first = second := by
    intro first hfirst second hsecond hbegins
    by_contra hother
    have hsymm : Std.Symm fun first second : List Bool => ¬ first <+: second ∧ ¬ second <+: first :=
      ⟨fun _ _ h => h.symm⟩
    exact (hfree.forall hfirst hsecond hother).1 hbegins
  have hne : [] ∉ words := by
    intro hnil
    -- The empty word begins every other one, so it would be the only word.
    have hall : ∀ word ∈ words, word = [] := fun word hword =>
      (hdistinct [] hnil word hword ⟨word, rfl⟩).symm
    have hone := List.nodup_iff_count_le_one.mp hnodup []
    rw [List.eq_replicate_of_mem hall, List.count_replicate_self] at hone
    omega
  have huniquely : UniquelyDecodable (words.toFinset : Set (List Bool)) := by
    apply uniquelyDecodable_of_prefixFree
    · intro first hfirst second hsecond
      exact hdistinct first (List.mem_toFinset.mp hfirst) second (List.mem_toFinset.mp hsecond)
    · intro hnil
      exact hne (List.mem_toFinset.mp hnil)
  have hkraft := kraft_mcmillan_inequality huniquely
  rw [List.sum_toFinset _ hnodup, Fintype.card_bool] at hkraft
  rw [kraftSum, List.map_map]
  exact hkraft

end PrefixFree

/-- A sum of powers with exponents of at most `bound` is a multiple of the last power. -/
theorem kraftSum_eq_mul {lengths : List Nat} {bound : Nat} (h : ∀ length ∈ lengths, length ≤ bound) :
    ∃ count : Nat, kraftSum lengths * 2 ^ bound = count := by
  induction lengths with
  | nil => exact ⟨0, by simp [kraftSum]⟩
  | cons length lengths ih =>
      obtain ⟨count, hcount⟩ := ih fun other hother => h other (List.mem_cons_of_mem _ hother)
      refine ⟨2 ^ (bound - length) + count, ?_⟩
      have hsplit : (2 : ℝ) ^ bound = 2 ^ length * 2 ^ (bound - length) := by
        rw [← pow_add, Nat.add_sub_cancel' (h length List.mem_cons_self)]
      have hpower : (1 / 2 : ℝ) ^ length * 2 ^ bound = 2 ^ (bound - length) := by
        rw [hsplit, ← mul_assoc, ← mul_pow]
        norm_num
      rw [kraftSum_cons, add_mul, hpower, hcount]
      push_cast
      rfl

/-- The two longest lengths can give way to one that is shorter by one. -/
theorem kraftSum_merge {longest next : Nat} {lengths : List Nat} (hnext : next ≤ longest)
    (hbound : ∀ length ∈ lengths, length ≤ next) (h : kraftSum (longest :: next :: lengths) ≤ 1) :
    1 ≤ next ∧ kraftSum ((next - 1) :: lengths) ≤ 1 := by
  rw [kraftSum_cons, kraftSum_cons] at h
  have hpos : (0 : ℝ) < (1 / 2) ^ longest := by positivity
  have hrest := kraftSum_nonneg lengths
  have hone : 1 ≤ next := by
    rcases Nat.eq_zero_or_pos next with hzero | hpositive
    · rw [hzero, pow_zero] at h
      linarith
    · exact hpositive
  refine ⟨hone, ?_⟩
  obtain ⟨count, hcount⟩ := kraftSum_eq_mul hbound
  have hscale : (0 : ℝ) < 2 ^ next := by positivity
  have hunit : (1 / 2 : ℝ) ^ next * 2 ^ next = 1 := by
    rw [← mul_pow]
    norm_num
  -- Scaled up, everything is whole, and the longest length leaves room for one more unit.
  have hroom : count + 2 ≤ 2 ^ next := by
    have hlt : (count : ℝ) + 1 < 2 ^ next := by
      calc (count : ℝ) + 1 = ((1 / 2) ^ next + kraftSum lengths) * 2 ^ next := by
            rw [add_mul, hunit, hcount, add_comm]
        _ < 1 * 2 ^ next := by
            apply mul_lt_mul_of_pos_right _ hscale
            linarith
        _ = 2 ^ next := one_mul _
    exact_mod_cast hlt
  have hshort : (1 / 2 : ℝ) ^ (next - 1) * 2 ^ next = 2 := by
    obtain ⟨less, rfl⟩ : ∃ less, next = less + 1 := ⟨next - 1, by omega⟩
    rw [Nat.add_sub_cancel, pow_succ, ← mul_assoc, ← mul_pow]
    norm_num
  have htotal : kraftSum ((next - 1) :: lengths) * 2 ^ next ≤ 1 * 2 ^ next := by
    rw [kraftSum_cons, add_mul, hshort, hcount, one_mul]
    have : ((count + 2 : Nat) : ℝ) ≤ ((2 ^ next : Nat) : ℝ) := Nat.cast_le.mpr hroom
    push_cast at this
    linarith
  exact le_of_mul_le_mul_right htotal hscale

/-! ### Costs -/

/-- What weights with lengths cost. -/
def cost (weighted : List (Nat × Nat)) : Nat := (weighted.map fun entry => entry.1 * entry.2).sum

theorem cost_cons (entry : Nat × Nat) (weighted : List (Nat × Nat)) :
    cost (entry :: weighted) = entry.1 * entry.2 + cost weighted := rfl

theorem cost_perm {weighted weighted' : List (Nat × Nat)} (h : weighted.Perm weighted') :
    cost weighted = cost weighted' := (h.map _).sum_eq

/-- What merging the first two of the sorted weights over and over adds up to. -/
def mergeCost : Nat → List Nat → Nat
  | rounds + 1, first :: second :: weights =>
      (first + second) + mergeCost rounds (weights.orderedInsert (· ≤ ·) (first + second))
  | _, _ => 0

/-- Exchanging lengths: the least weight can take the greatest length at no greater cost. -/
theorem exists_least_with_longest {weighted : List (Nat × Nat)} {least : Nat} {weights : List Nat}
    (hperm : (weighted.map Prod.fst).Perm (least :: weights)) (hleast : ∀ weight ∈ weights, least ≤ weight) :
    ∃ longest others, (others.map Prod.fst).Perm weights ∧
      (longest :: others.map Prod.snd).Perm (weighted.map Prod.snd) ∧
      (∀ length ∈ others.map Prod.snd, length ≤ longest) ∧
      cost ((least, longest) :: others) ≤ cost weighted := by
  obtain ⟨⟨_, length⟩, hmem, rfl⟩ : ∃ entry ∈ weighted, entry.1 = least :=
    List.mem_map.mp (hperm.mem_iff.mpr List.mem_cons_self)
  obtain ⟨⟨weight, longest⟩, hmax, hlongest⟩ :=
    weighted.toFinset.exists_max_image Prod.snd ⟨_, List.mem_toFinset.mpr hmem⟩
  have hlongest : ∀ entry ∈ weighted, entry.2 ≤ longest := fun entry hentry =>
    hlongest entry (List.mem_toFinset.mpr hentry)
  have hout := List.perm_cons_erase hmem
  generalize weighted.erase (_, length) = others at hout
  have hothers : (others.map Prod.fst).Perm weights :=
    List.Perm.cons_inv ((hout.map Prod.fst).symm.trans hperm)
  by_cases hsame : length = longest
  · subst hsame
    refine ⟨length, others, hothers, (hout.map Prod.snd).symm, ?_, (cost_perm hout).ge⟩
    intro other hother
    obtain ⟨entry, hentry, rfl⟩ := List.mem_map.mp hother
    exact hlongest entry (hout.mem_iff.mpr (List.mem_cons_of_mem _ hentry))
  · have hin : (weight, longest) ∈ others := by
      rcases List.mem_cons.mp (hout.mem_iff.mp (List.mem_toFinset.mp hmax)) with heq | hin
      · exact absurd (Prod.mk.inj heq).2.symm hsame
      · exact hin
    have hinner := List.perm_cons_erase hin
    generalize others.erase (weight, longest) = rest at hinner
    refine ⟨longest, (weight, length) :: rest, ?_, ?_, ?_, ?_⟩
    · exact (hinner.map Prod.fst).symm.trans hothers
    · apply List.Perm.trans (List.Perm.swap length longest (rest.map Prod.snd))
      exact (((hinner.cons _).map Prod.snd).symm.trans (hout.map Prod.snd).symm)
    · intro other hother
      rcases List.mem_cons.mp hother with rfl | hother
      · exact hlongest _ hmem
      · obtain ⟨entry, hentry, rfl⟩ := List.mem_map.mp hother
        apply hlongest
        exact hout.mem_iff.mpr (List.mem_cons_of_mem _ (hinner.mem_iff.mpr (List.mem_cons_of_mem _ hentry)))
    · have hweight : _ ≤ weight := hleast weight (hothers.mem_iff.mp (List.mem_map_of_mem hin))
      have hexchange := mul_add_mul_le_mul_add_mul hweight (hlongest _ hmem)
      rw [cost_perm (hout.trans (hinner.cons _))]
      simp only [cost_cons]
      linarith

/-- Lengths that satisfy the inequality of Kraft never cost less than merging the two least weights. -/
theorem mergeCost_le_cost (rounds : Nat) {weights : List Nat} (hsorted : weights.Pairwise (· ≤ ·))
    {weighted : List (Nat × Nat)} (hperm : (weighted.map Prod.fst).Perm weights)
    (hkraft : kraftSum (weighted.map Prod.snd) ≤ 1) : mergeCost rounds weights ≤ cost weighted := by
  induction rounds generalizing weights weighted with
  | zero => exact Nat.zero_le _
  | succ rounds ih =>
      rcases weights with _ | ⟨first, _ | ⟨second, weights⟩⟩
      · exact Nat.zero_le _
      · exact Nat.zero_le _
      · obtain ⟨hfirst, hsorted⟩ := List.pairwise_cons.mp hsorted
        obtain ⟨hsecond, hsorted⟩ := List.pairwise_cons.mp hsorted
        obtain ⟨longest, others, hothers, hlengths, hlongest, hcost⟩ :=
          exists_least_with_longest hperm hfirst
        obtain ⟨next, rest, hrest, hlengths', hnext, hcost'⟩ :=
          exists_least_with_longest hothers hsecond
        have hle : next ≤ longest := hlongest next (hlengths'.mem_iff.mp List.mem_cons_self)
        rw [← kraftSum_perm ((hlengths'.cons longest).trans hlengths)] at hkraft
        obtain ⟨hone, hkraft⟩ := kraftSum_merge hle hnext hkraft
        -- The merged weight takes the length of the second weight, less one.
        have hweights : (((first + second, next - 1) :: rest).map Prod.fst).Perm
            (weights.orderedInsert (· ≤ ·) (first + second)) :=
          (hrest.cons _).trans (List.perm_orderedInsert _ _ _).symm
        have hmerged := ih (hsorted.orderedInsert (first + second) weights) hweights hkraft
        calc mergeCost (rounds + 1) (first :: second :: weights)
            ≤ (first + second) + cost ((first + second, next - 1) :: rest) :=
              Nat.add_le_add_left hmerged _
          _ = (first + second) * next + cost rest := by
              obtain ⟨less, rfl⟩ : ∃ less, next = less + 1 := ⟨next - 1, by omega⟩
              rw [cost_cons, Nat.add_sub_cancel]
              ring
          _ ≤ first * longest + (second * next + cost rest) := by
              have := Nat.mul_le_mul_left first hle
              linarith
          _ ≤ cost weighted := by
              rw [cost_cons] at hcost hcost'
              linarith

end MinimalCost
