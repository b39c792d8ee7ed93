import Std.Data.ExtTreeMap.Lemmas
import Mathlib.Logic.Function.Basic
import Mathlib.Tactic.SplitIfs

/-!
# Finite maps with lawful keys

`Std.ExtTreeMap` states its lookup lemmas with `compare k a = .eq`.  For keys whose comparison decides
equality the same facts read `k = a`, which is how a model of a `std::map` uses them.
-/

namespace Tables

open Std

variable {κ ν : Type} [Ord κ] [TransOrd κ] [LawfulEqOrd κ] [DecidableEq κ]
  (t : ExtTreeMap κ ν compare) (k : κ) (v : ν)

omit [DecidableEq κ] in
@[simp] theorem getElem?_insert_self : (t.insert k v)[k]? = some v := by
  rw [ExtTreeMap.getElem?_insert, if_pos compare_self]

theorem getElem?_insert (a : κ) : (t.insert k v)[a]? = if k = a then some v else t[a]? := by
  simp only [ExtTreeMap.getElem?_insert, LawfulEqCmp.compare_eq_iff_eq]

theorem getElem?_erase (a : κ) : (t.erase k)[a]? = if k = a then none else t[a]? := by
  simp only [ExtTreeMap.getElem?_erase, LawfulEqCmp.compare_eq_iff_eq]

omit [DecidableEq κ] in
theorem mem_insert (a : κ) : a ∈ t.insert k v ↔ k = a ∨ a ∈ t := by
  rw [ExtTreeMap.mem_insert, LawfulEqCmp.compare_eq_iff_eq]

omit [DecidableEq κ] in
theorem getElem?_insert_of_ne {t : ExtTreeMap κ ν compare} {k a : κ} {v : ν} (h : k ≠ a) :
    (t.insert k v)[a]? = t[a]? := by
  rw [ExtTreeMap.getElem?_insert, if_neg (by rwa [LawfulEqCmp.compare_eq_iff_eq])]

omit [DecidableEq κ] in
@[simp] theorem getElem?_erase_self : (t.erase k)[k]? = none := by
  rw [ExtTreeMap.getElem?_erase, if_pos compare_self]

omit [DecidableEq κ] in
theorem getElem?_erase_of_ne {t : ExtTreeMap κ ν compare} {k a : κ} (h : k ≠ a) :
    (t.erase k)[a]? = t[a]? := by
  rw [ExtTreeMap.getElem?_erase, if_neg (by rwa [LawfulEqCmp.compare_eq_iff_eq])]

/-- An entry is the new one, or an entry at another key. -/
theorem getElem?_insert_eq_some {t : ExtTreeMap κ ν compare} {k a : κ} {v w : ν} :
    (t.insert k v)[a]? = some w ↔ k = a ∧ v = w ∨ k ≠ a ∧ t[a]? = some w := by
  rw [getElem?_insert]
  split_ifs with hk
  · simp [hk]
  · simp [hk]

/-- An entry that is left is one at another key. -/
theorem getElem?_erase_eq_some {t : ExtTreeMap κ ν compare} {k a : κ} {w : ν} :
    (t.erase k)[a]? = some w ↔ k ≠ a ∧ t[a]? = some w := by
  rw [getElem?_erase]
  split_ifs with hk
  · simp [hk]
  · simp [hk]

/-- Seen through `f`, an insertion updates the map at its key, … -/
theorem map_insert {μ : Type} (f : ν → μ) :
    (fun a => (t.insert k v)[a]?.map f) = Function.update (fun a => t[a]?.map f) k (some (f v)) := by
  funext a
  rw [getElem?_insert]
  by_cases hk : k = a
  · rw [if_pos hk, hk, Function.update_self, Option.map_some]
  · rw [if_neg hk, Function.update_of_ne (Ne.symm hk)]

/-- … and so does an erasure. -/
theorem map_erase {μ : Type} (f : ν → μ) :
    (fun a => (t.erase k)[a]?.map f) = Function.update (fun a => t[a]?.map f) k none := by
  funext a
  rw [getElem?_erase]
  by_cases hk : k = a
  · rw [if_pos hk, hk, Function.update_self, Option.map_none]
  · rw [if_neg hk, Function.update_of_ne (Ne.symm hk)]

omit [DecidableEq κ] [LawfulEqOrd κ] in
/-- A new key makes the map one larger. -/
theorem size_insert_of_none {t : ExtTreeMap κ ν compare} {k : κ} (h : t[k]? = none) :
    (t.insert k v).size = t.size + 1 := by
  have hk : t.contains k = false := by
    rw [← ExtTreeMap.isSome_getElem?_eq_contains, h]
    rfl
  rw [ExtTreeMap.size_insert, hk]
  rfl

omit [DecidableEq κ] [LawfulEqOrd κ] in
/-- Overwriting a key keeps the size. -/
theorem size_insert_of_some {t : ExtTreeMap κ ν compare} {k : κ} {w : ν} (h : t[k]? = some w) :
    (t.insert k v).size = t.size := by
  have hk : t.contains k = true := by
    rw [← ExtTreeMap.isSome_getElem?_eq_contains, h]
    rfl
  rw [ExtTreeMap.size_insert, hk]
  rfl

omit [DecidableEq κ] [LawfulEqOrd κ] in
/-- Erasing a bound key makes the map one smaller. -/
theorem size_erase_of_some {t : ExtTreeMap κ ν compare} {k : κ} {w : ν} (h : t[k]? = some w) :
    (t.erase k).size + 1 = t.size := by
  have hk : t.contains k = true := by
    rw [← ExtTreeMap.isSome_getElem?_eq_contains, h]
    rfl
  have hpos : t.size ≠ 0 := by
    intro h0
    have hempty := ExtTreeMap.eq_empty_iff_size_eq_zero.mpr h0
    rw [hempty] at h
    simp at h
  rw [ExtTreeMap.size_erase, hk, if_pos rfl]
  omega

end Tables
