/-
Module: Priestly.Lib.OrderedDict
Layer: Lib
Purpose: Dictionaries that keep the order in which keys were inserted. A key occurs once; setting it again
  changes its value in place. Updating by one dictionary and then by another is updating by the two
  merged.
Imports: Mathlib list lemmas
Trusted boundary: none
Main exports: OrderedDict, OrderedDict.set, OrderedDict.update, OrderedDict.update_update,
  OrderedDict.get_set
-/
import Mathlib.Data.List.Basic

/-- A dictionary: entries with distinct keys, in the order of their insertion. -/
structure OrderedDict (κ ν : Type) where
  entries : List (κ × ν)
  nodup : (entries.map Prod.fst).Nodup

namespace OrderedDict

variable {κ ν : Type}

@[ext]
theorem ext {d e : OrderedDict κ ν} (h : d.entries = e.entries) : d = e := by
  cases d
  cases e
  cases h
  rfl

/-- The dictionary without entries. -/
def empty : OrderedDict κ ν := ⟨[], List.nodup_nil⟩

/-- The keys, in the order of their insertion. -/
def keys (d : OrderedDict κ ν) : List κ := d.entries.map Prod.fst

variable [DecidableEq κ]

/-! ### Entries -/

/-- Set a key in a list of entries. -/
def setEntry (key : κ) (value : ν) : List (κ × ν) → List (κ × ν)
  | [] => [(key, value)]
  | entry :: entries =>
      if entry.1 = key then (key, value) :: entries else entry :: setEntry key value entries

theorem keys_setEntry (key : κ) (value : ν) (entries : List (κ × ν)) :
    (setEntry key value entries).map Prod.fst =
      if key ∈ entries.map Prod.fst then entries.map Prod.fst else entries.map Prod.fst ++ [key] := by
  induction entries with
  | nil => rfl
  | cons entry entries ih =>
      rw [setEntry]
      by_cases hkey : entry.1 = key
      · rw [if_pos hkey, if_pos (by simp [hkey])]
        simp [hkey]
      · rw [if_neg hkey, List.map_cons, ih]
        by_cases hmem : key ∈ entries.map Prod.fst
        · rw [if_pos hmem, if_pos (by simp [hmem])]
          rfl
        · have hnone : key ∉ (entry :: entries).map Prod.fst := by
            rw [List.map_cons, List.mem_cons]
            exact fun h => h.elim (fun h => hkey h.symm) hmem
          rw [if_neg hmem, if_neg hnone]
          rfl

/-- Setting a key twice keeps the second value. -/
theorem setEntry_setEntry (key : κ) (first second : ν) (entries : List (κ × ν)) :
    setEntry key second (setEntry key first entries) = setEntry key second entries := by
  induction entries with
  | nil => simp [setEntry]
  | cons entry entries ih =>
      by_cases hkey : entry.1 = key
      · simp [setEntry, hkey]
      · simp [setEntry, hkey, ih]

/-- Setting a key that is there commutes with setting another. -/
theorem setEntry_comm {key other : κ} (hne : other ≠ key) (value value' : ν) {entries : List (κ × ν)}
    (hmem : key ∈ entries.map Prod.fst) :
    setEntry key value (setEntry other value' entries) =
      setEntry other value' (setEntry key value entries) := by
  induction entries with
  | nil => cases hmem
  | cons entry entries ih =>
      by_cases hother : entry.1 = other
      · have hkey : entry.1 ≠ key := hother ▸ hne
        simp [setEntry, hother, hne]
      · by_cases hkey : entry.1 = key
        · simp [setEntry, hkey, hne.symm]
        · have hrest : key ∈ entries.map Prod.fst := by
            rw [List.map_cons, List.mem_cons] at hmem
            exact hmem.resolve_left fun h => hkey h.symm
          simp [setEntry, hother, hkey, ih hrest]

theorem lookup_setEntry (key : κ) (value : ν) (entries : List (κ × ν)) :
    (setEntry key value entries).lookup key = some value := by
  induction entries with
  | nil => simp [setEntry]
  | cons entry entries ih =>
      by_cases hkey : entry.1 = key
      · simp [setEntry, hkey]
      · have hne : (key == entry.1) = false := by
          rw [beq_eq_false_iff_ne]
          exact fun h => hkey h.symm
        rw [setEntry, if_neg hkey, List.lookup_cons, hne]
        exact ih

/-! ### Dictionaries -/

/-- `d[key] = value`. -/
def set (d : OrderedDict κ ν) (key : κ) (value : ν) : OrderedDict κ ν where
  entries := setEntry key value d.entries
  nodup := by
    rw [keys_setEntry]
    split
    · exact d.nodup
    · rename_i hnew
      rw [List.nodup_append]
      refine ⟨d.nodup, List.pairwise_singleton _ _, ?_⟩
      intro a ha b hb heq
      rw [List.mem_singleton.mp hb] at heq
      exact hnew (heq ▸ ha)

/-- The value of a key, if it has one. -/
def get (d : OrderedDict κ ν) (key : κ) : Option ν := d.entries.lookup key

/-- Set the keys of the entries, one after the other. -/
def setAll (d : OrderedDict κ ν) (entries : List (κ × ν)) : OrderedDict κ ν :=
  entries.foldl (fun d entry => d.set entry.1 entry.2) d

/-- `d.update(other)`. -/
def update (d other : OrderedDict κ ν) : OrderedDict κ ν := d.setAll other.entries

@[simp] theorem get_set (d : OrderedDict κ ν) (key : κ) (value : ν) :
    (d.set key value).get key = some value :=
  lookup_setEntry key value d.entries

@[simp] theorem update_empty (d : OrderedDict κ ν) : d.update empty = d := rfl

theorem set_set (d : OrderedDict κ ν) (key : κ) (first second : ν) :
    (d.set key first).set key second = d.set key second :=
  ext (setEntry_setEntry key first second d.entries)

theorem set_comm {d : OrderedDict κ ν} {key other : κ} (hne : other ≠ key) (value value' : ν)
    (hmem : key ∈ d.keys) :
    (d.set other value').set key value = (d.set key value).set other value' :=
  ext (setEntry_comm hne value value' hmem)

theorem mem_keys_set_self (d : OrderedDict κ ν) (key : κ) (value : ν) : key ∈ (d.set key value).keys := by
  rw [keys, set, keys_setEntry]
  split
  · assumption
  · simp

theorem mem_keys_set {d : OrderedDict κ ν} {key : κ} (other : κ) (value : ν) (h : key ∈ d.keys) :
    key ∈ (d.set other value).keys := by
  rw [keys, set, keys_setEntry]
  split
  · exact h
  · exact List.mem_append_left _ h

/-- A key that is there may be set before entries for other keys. -/
theorem set_setAll {key : κ} (value : ν) {entries : List (κ × ν)} {d : OrderedDict κ ν}
    (hmem : key ∈ d.keys) (hnew : key ∉ entries.map Prod.fst) :
    (d.setAll entries).set key value = (d.set key value).setAll entries := by
  induction entries generalizing d with
  | nil => rfl
  | cons entry entries ih =>
      rw [List.map_cons, List.mem_cons, not_or] at hnew
      calc ((d.set entry.1 entry.2).setAll entries).set key value
        _ = ((d.set entry.1 entry.2).set key value).setAll entries :=
            ih (mem_keys_set entry.1 entry.2 hmem) hnew.2
        _ = ((d.set key value).set entry.1 entry.2).setAll entries := by
            rw [set_comm (Ne.symm hnew.1) value entry.2 hmem]

/-- Setting the entries of a list in which a key is set is setting the key afterwards. -/
theorem setAll_setEntry (key : κ) (value : ν) {entries : List (κ × ν)}
    (hnodup : (entries.map Prod.fst).Nodup) (d : OrderedDict κ ν) :
    d.setAll (setEntry key value entries) = (d.setAll entries).set key value := by
  induction entries generalizing d with
  | nil => rfl
  | cons entry entries ih =>
      rw [List.map_cons, List.nodup_cons] at hnodup
      by_cases hkey : entry.1 = key
      · have hlater : ((d.set key entry.2).setAll entries).set key value =
            ((d.set key entry.2).set key value).setAll entries :=
          set_setAll value (mem_keys_set_self d key entry.2) (hkey ▸ hnodup.1)
        rw [set_set] at hlater
        rw [setEntry, if_pos hkey, setAll, setAll, List.foldl_cons, List.foldl_cons, hkey]
        exact hlater.symm
      · rw [setEntry, if_neg hkey, setAll, setAll, List.foldl_cons, List.foldl_cons]
        exact ih hnodup.2 (d.set entry.1 entry.2)

/-- Updating by one dictionary and then by another is updating by the first updated by the second. -/
theorem update_update (d first second : OrderedDict κ ν) :
    (d.update first).update second = d.update (first.update second) := by
  have all : ∀ (entries : List (κ × ν)) (first : OrderedDict κ ν),
      (d.update first).setAll entries = d.update (first.setAll entries) := by
    intro entries
    induction entries with
    | nil => exact fun _ => rfl
    | cons entry entries ih =>
        intro first
        have hset : d.update (first.set entry.1 entry.2) = (d.update first).set entry.1 entry.2 :=
          setAll_setEntry entry.1 entry.2 first.nodup d
        have hlater := ih (first.set entry.1 entry.2)
        rw [hset] at hlater
        exact hlater
  exact all second.entries first

end OrderedDict
