import Mathlib.Data.List.Perm.Lattice
import Mathlib.Order.Lattice
import Mathlib.Tactic.Tauto

/-!
# Reading a list backwards by a coarse cursor

A list that is sorted by a key is read in pages of `n`: the last `n` elements, then the last `n` of those
whose key is below the key of the oldest element read, and so on until nothing is left.  Where two elements
with one key are cut apart by the end of a page, the older one is below no cursor and is never read.

* `Pages` — the pages, with `Pages.exists`.
* `Pages.sublist` — nothing is read twice, and the order is kept.
* `CleanCuts` — no page ends between two elements with one key.
* `Pages.perm_iff` — everything is read exactly when the cuts are clean.
-/

namespace Paging

variable {α κ : Type} [LinearOrder κ] {key : α → κ} {n : ℕ}

/-- The pages of a list, from the end; a page is in the order of the list. -/
inductive Pages (key : α → κ) (n : ℕ) : List α → List (List α) → Prop where
  | stop : Pages key n [] []
  | page {l oldest newer rest} : l.drop (l.length - n) = oldest :: newer →
      Pages key n (l.filter fun x => decide (key x < key oldest)) rest →
      Pages key n l ((oldest :: newer) :: rest)

/-- No page ends between two elements with one key: counted from the end, pages end every `n`
elements. -/
def CleanCuts (key : α → κ) (n : ℕ) (l : List α) : Prop :=
  ∀ front x y back, l = front ++ x :: y :: back → n ∣ back.length + 1 → key x < key y

/-- Where all keys differ, every cut is clean. -/
theorem cleanCuts_of_pairwise {l : List α} (h : l.Pairwise fun x y => key x < key y) :
    CleanCuts key n l := by
  intro front x y back hl _
  subst hl
  have hright := (List.pairwise_append.mp h).2.1
  exact (List.pairwise_cons.mp hright).1 y List.mem_cons_self

/-- A page is the end of the list, and full unless it is all of it. -/
theorem split_page {l : List α} {oldest : α} {newer : List α}
    (h : l.drop (l.length - n) = oldest :: newer) :
    l = l.take (l.length - n) ++ oldest :: newer ∧
      (l.take (l.length - n) = [] ∨ newer.length + 1 = n) := by
  have hl := List.take_append_drop (l.length - n) l
  rw [h] at hl
  have hlength : newer.length + 1 = l.length - (l.length - n) := by
    have := congrArg List.length h
    simpa using this.symm
  refine ⟨hl.symm, ?_⟩
  by_cases hn : l.length ≤ n
  · left
    rw [show l.length - n = 0 by omega, List.take_zero]
  · right
    omega

section Sorted

variable {l : List α}

/-- What is below the oldest element of the page stands in front of the page. -/
theorem filter_below {front newer : List α} {oldest : α}
    (hsorted : (front ++ oldest :: newer).Pairwise fun x y => key x ≤ key y) :
    (front ++ oldest :: newer).filter (fun x => decide (key x < key oldest)) =
      front.filter fun x => decide (key x < key oldest) := by
  have hpage : ∀ x ∈ oldest :: newer, ¬ key x < key oldest := by
    intro x hx
    rcases List.mem_cons.mp hx with rfl | hx
    · exact lt_irrefl _
    · have hright := (List.pairwise_append.mp hsorted).2.1
      exact not_lt.mpr ((List.pairwise_cons.mp hright).1 x hx)
  rw [List.filter_append]
  have hnone : (oldest :: newer).filter (fun x => decide (key x < key oldest)) = [] :=
    List.filter_eq_nil_iff.mpr fun x hx => by simpa using hpage x hx
  rw [hnone, List.append_nil]

/-- Every list has pages. -/
theorem Pages.exists (hn : 0 < n) (l : List α) : ∃ pages, Pages key n l pages := by
  induction hlength : l.length using Nat.strongRecOn generalizing l with
  | ind m ih =>
    subst hlength
    cases hpage : l.drop (l.length - n) with
    | nil =>
      have hnil : l = [] := by
        have hshort := List.drop_eq_nil_iff.mp hpage
        rw [← List.length_eq_zero_iff]
        omega
      subst hnil
      exact ⟨[], .stop⟩
    | cons oldest newer =>
      have holdest : oldest ∈ l := List.mem_of_mem_drop (hpage ▸ List.mem_cons_self)
      have hshorter : (l.filter fun x => decide (key x < key oldest)).length < l.length := by
        rw [List.length_filter_lt_length_iff_exists]
        exact ⟨oldest, holdest, by simp⟩
      obtain ⟨rest, hrest⟩ := ih _ hshorter _ rfl
      exact ⟨_, .page hpage hrest⟩

/-- **Nothing is read twice**: read from the last page to the first, the pages are part of the list. -/
theorem Pages.sublist {pages : List (List α)} (h : Pages key n l pages)
    (hsorted : l.Pairwise fun x y => key x ≤ key y) : pages.reverse.flatten.Sublist l := by
  induction h with
  | stop => exact .refl _
  | @page l oldest newer rest hpage _ ih =>
    obtain ⟨hl, -⟩ := split_page hpage
    have hbelow := ih (hsorted.sublist List.filter_sublist)
    rw [hl, filter_below (hl ▸ hsorted)] at hbelow
    rw [List.reverse_cons, List.flatten_append, List.flatten_singleton]
    conv => rhs; rw [hl]
    exact (hbelow.trans List.filter_sublist).append_right _

/-- The elements of the pages, in whatever order, are no more than those of the list. -/
theorem Pages.length_le {pages : List (List α)} (h : Pages key n l pages)
    (hsorted : l.Pairwise fun x y => key x ≤ key y) : pages.flatten.length ≤ l.length := by
  have hsub := (h.sublist hsorted).length_le
  rwa [(pages.reverse_perm.flatten).length_eq] at hsub

/-- The cuts of a list with a page behind it: those of the list, and the one in front of the page. -/
theorem cleanCuts_append {front newer : List α} {oldest : α}
    (hfull : front = [] ∨ newer.length + 1 = n) (hshort : newer.length + 1 ≤ n) :
    CleanCuts key n (front ++ oldest :: newer) ↔
      CleanCuts key n front ∧ ∀ x, front.getLast? = some x → key x < key oldest := by
  constructor
  · intro h
    refine ⟨fun f x y back hfront hdvd => ?_, fun x hx => ?_⟩
    · rcases hfull with rfl | hfull
      · exact absurd hfront (by simp)
      · refine h f x y (back ++ oldest :: newer) (by simp [hfront]) ?_
        rw [List.length_append, List.length_cons, hfull,
          show back.length + n + 1 = back.length + 1 + n by omega]
        exact Nat.dvd_add hdvd (Nat.dvd_refl n)
    · obtain ⟨f, rfl⟩ := List.getLast?_eq_some_iff.mp hx
      rcases hfull with hnil | hfull
      · exact absurd hnil (by simp)
      · exact h f x oldest newer (by simp) (hfull ▸ Nat.dvd_refl _)
  · rintro ⟨hfront, hlast⟩ f x y back heq hdvd
    rcases List.append_eq_append_iff.mp heq with ⟨c, hf, hpage⟩ | ⟨c, hfrontEq, hback⟩
    · -- the cut is inside the page, which is too short
      exfalso
      have hlength := congrArg List.length hpage
      simp only [List.length_cons, List.length_append] at hlength
      have hle := Nat.le_of_dvd (Nat.succ_pos _) hdvd
      omega
    · cases c with
      | nil =>
        obtain ⟨-, hcut⟩ := List.cons.inj hback
        exfalso
        have hlength := congrArg List.length hcut
        simp only [List.length_cons] at hlength
        have hle := Nat.le_of_dvd (Nat.succ_pos _) hdvd
        omega
      | cons x' c =>
        rw [List.cons_append] at hback
        obtain ⟨rfl, hcut⟩ := List.cons.inj hback
        cases c with
        | nil =>
          obtain ⟨rfl, -⟩ := List.cons.inj hcut
          exact hlast x (by rw [hfrontEq, List.getLast?_append]; rfl)
        | cons y' c =>
          rw [List.cons_append] at hcut
          obtain ⟨rfl, rfl⟩ := List.cons.inj hcut
          refine hfront f x y c hfrontEq ?_
          rcases hfull with rfl | hfull
          · exact absurd hfrontEq (by simp)
          · rw [List.length_append, List.length_cons, hfull,
              show c.length + n + 1 = c.length + 1 + n by omega] at hdvd
            exact (Nat.dvd_add_left (Nat.dvd_refl n)).mp hdvd

/-- **Everything is read exactly when the cuts are clean.** -/
theorem Pages.perm_iff {pages : List (List α)} (h : Pages key n l pages)
    (hsorted : l.Pairwise fun x y => key x ≤ key y) : pages.flatten.Perm l ↔ CleanCuts key n l := by
  induction h with
  | stop => exact iff_of_true (.refl _) fun f x y back heq => absurd heq (by simp)
  | @page l oldest newer rest hpage hrest ih =>
    obtain ⟨hl, hfull⟩ := split_page hpage
    have hshort : newer.length + 1 ≤ n := by
      have hlength := congrArg List.length hpage
      rw [List.length_drop, List.length_cons] at hlength
      omega
    generalize l.take (l.length - n) = front at hl hfull
    subst hl
    have hrestLength := hrest.length_le (hsorted.sublist List.filter_sublist)
    rw [filter_below hsorted] at ih hrestLength
    rw [List.flatten_cons, cleanCuts_append hfull hshort]
    have hfront := hsorted.sublist (List.sublist_append_left front (oldest :: newer))
    by_cases hclean : ∀ x ∈ front, key x < key oldest
    · -- the rest is read from everything in front of the page
      have hall : front.filter (fun x => decide (key x < key oldest)) = front :=
        List.filter_eq_self.mpr fun x hx => decide_eq_true (hclean x hx)
      rw [hall] at ih
      have hcancel : ((oldest :: newer) ++ rest.flatten).Perm (front ++ oldest :: newer) ↔
          rest.flatten.Perm front := by
        constructor
        · intro hperm
          exact (List.perm_append_left_iff _).mp (hperm.trans List.perm_append_comm)
        · intro hperm
          exact ((List.perm_append_left_iff _).mpr hperm).trans List.perm_append_comm
      rw [hcancel, ih hfront]
      exact ⟨fun h => ⟨h, fun x hx => hclean x (List.mem_of_getLast? hx)⟩, fun h => h.1⟩
    · -- an element with the key of the oldest one is lost
      refine iff_of_false (fun hperm => hclean fun x hx => ?_) fun hcuts => hclean fun x hx => ?_
      · have hlength := hperm.length_eq
        rw [List.length_append, List.length_append] at hlength
        have hfilter : (front.filter fun x => decide (key x < key oldest)).length = front.length :=
          Nat.le_antisymm (List.length_filter_le ..) (by omega)
        exact of_decide_eq_true (List.length_filter_eq_length_iff.mp hfilter x hx)
      · obtain ⟨last, hlast⟩ :=
          Option.isSome_iff_exists.mp (List.getLast?_isSome.mpr (List.ne_nil_of_mem hx))
        obtain ⟨f, rfl⟩ := List.getLast?_eq_some_iff.mp hlast
        refine lt_of_le_of_lt ?_ (hcuts.2 last hlast)
        rcases List.mem_append.mp hx with hx | hx
        · exact (List.pairwise_append.mp hfront).2.2 x hx last (by simp)
        · rw [List.mem_singleton.mp hx]

end Sorted

end Paging
