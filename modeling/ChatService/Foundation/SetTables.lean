import ChatService.Foundation.Tables
import Std.Data.ExtTreeSet.Lemmas

/-!
# Maps to sets, read as relations

A map whose values are sets relates its keys to the elements of their sets.  Programs keep such a map
twice, once in each direction, and drop the keys of empty sets in one of them.

* `Related` with `related_add`, `related_remove`, `related_erase` — what the usual updates do to the
  relation.
* `Tight` — no key has an empty set.
* `Linked` — a map and its reverse index.
-/

namespace SetTables

open Std

variable {κ ν : Type} [Ord κ] [TransOrd κ] [Ord ν] [TransOrd ν]

/-- A `std::map` from keys to `std::set`s. -/
abbrev SetTable (κ ν : Type) [Ord κ] [Ord ν] := ExtTreeMap κ (ExtTreeSet ν compare) compare

/-- `v` is in the set of `k`. -/
def Related (t : SetTable κ ν) (k : κ) (v : ν) : Prop := ∃ set, t[k]? = some set ∧ v ∈ set

/-- No key has an empty set. -/
def Tight (t : SetTable κ ν) : Prop := ∀ k : κ, t[k]? ≠ some ∅

/-- A map and its reverse index, of which the second is tight. -/
structure Linked (forward : SetTable κ ν) (backward : SetTable ν κ) : Prop where
  inverse : ∀ k v, Related forward k v ↔ Related backward v k
  tight : Tight backward

section Lookups

variable {t : SetTable κ ν} {k : κ} {v : ν} {set : ExtTreeSet ν compare}

theorem related_iff_mem (h : t[k]? = some set) : Related t k v ↔ v ∈ set := by
  constructor
  · rintro ⟨set', hset', hv⟩
    obtain rfl := Option.some.inj (h.symm.trans hset')
    exact hv
  · exact fun hv => ⟨set, h, hv⟩

theorem not_related_of_none (h : t[k]? = none) : ¬ Related t k v := by
  rintro ⟨set, hset, -⟩
  exact absurd (h.symm.trans hset) (by simp)

end Lookups

section Updates

variable [LawfulEqOrd κ] {t : SetTable κ ν} {k a : κ} {v w : ν} {set : ExtTreeSet ν compare}

theorem related_insert_self : Related (t.insert k set) k v ↔ v ∈ set :=
  related_iff_mem (Tables.getElem?_insert_self ..)

theorem related_insert_of_ne (h : k ≠ a) : Related (t.insert k set) a v ↔ Related t a v := by
  rw [Related, Tables.getElem?_insert_of_ne h, Related]

/-- A key less. -/
theorem related_erase : Related (t.erase k) a w ↔ Related t a w ∧ a ≠ k := by
  by_cases ha : k = a
  · subst ha
    exact iff_of_false (not_related_of_none (Tables.getElem?_erase_self ..)) fun h => h.2 rfl
  · rw [Related, Tables.getElem?_erase_of_ne ha, Related]
    simp [Ne.symm ha]

omit [TransOrd ν] in
theorem Tight.insert (h : Tight t) (hset : set ≠ ∅) : Tight (t.insert k set) := by
  unfold Tight
  intro a
  by_cases ha : k = a
  · subst ha
    rw [Tables.getElem?_insert_self]
    exact fun hempty => hset (Option.some.inj hempty)
  · rw [Tables.getElem?_insert_of_ne ha]
    exact h a

omit [TransOrd ν] in
theorem Tight.erase (h : Tight t) : Tight (t.erase k) := by
  unfold Tight
  intro a
  by_cases ha : k = a
  · subst ha
    rw [Tables.getElem?_erase_self]
    simp
  · rw [Tables.getElem?_erase_of_ne ha]
    exact h a

variable [LawfulEqOrd ν]

/-- One more element in the set of `k`, which may not have been there. -/
theorem related_add (h : t[k]?.getD ∅ = set) :
    Related (t.insert k (set.insert v)) a w ↔ (a = k ∧ w = v) ∨ Related t a w := by
  by_cases ha : k = a
  · subst ha
    rw [related_insert_self, ExtTreeSet.mem_insert, LawfulEqCmp.compare_eq_iff_eq]
    have hold : w ∈ set ↔ Related t k w := by
      cases hk : t[k]? with
      | none =>
        rw [hk, Option.getD_none] at h
        subst h
        exact iff_of_false ExtTreeSet.not_mem_empty (not_related_of_none hk)
      | some old =>
        rw [hk, Option.getD_some] at h
        subst h
        exact (related_iff_mem hk).symm
    rw [hold, eq_comm]
    simp
  · rw [related_insert_of_ne ha]
    simp [Ne.symm ha]

/-- One element less in the set of `k`. -/
theorem related_remove (h : t[k]? = some set) :
    Related (t.insert k (set.erase v)) a w ↔ Related t a w ∧ ¬ (a = k ∧ w = v) := by
  by_cases ha : k = a
  · subst ha
    rw [related_insert_self, ExtTreeSet.mem_erase, related_iff_mem h, Ne,
      LawfulEqCmp.compare_eq_iff_eq, eq_comm, and_comm]
    simp
  · rw [related_insert_of_ne ha]
    simp [Ne.symm ha]

end Updates

end SetTables
