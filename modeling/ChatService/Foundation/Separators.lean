import Mathlib.Algebra.GroupWithZero.Nat
import Mathlib.Data.List.Basic

/-!
# Texts with separators between them

Every fact goes by the parts and their order: what holds of the parts and of the separator holds of the whole
(`of_append`), and a map of characters may be applied to the parts (`flatMap_intercalate`).
-/

namespace Separators

variable {α β : Type*} {sep : List α} {texts : List (List α)}

/-- What holds of all parts and is kept by `++` holds of the whole. -/
theorem of_append {P : List α → Prop} (hnil : P []) (happend : ∀ {xs ys}, P xs → P ys → P (xs ++ ys)) (hsep : P sep)
    (h : ∀ text ∈ texts, P text) : P (List.intercalate sep texts) := by
  induction texts with
  | nil => exact hnil
  | cons text texts ih =>
    obtain ⟨htext, htexts⟩ := List.forall_mem_cons.mp h
    cases texts with
    | nil =>
      rw [List.intercalate_singleton]
      exact htext
    | cons text' texts =>
      rw [List.intercalate_cons_cons]
      exact happend (happend htext hsep) (ih htexts)

theorem forall_mem_intercalate {p : α → Prop} (hsep : ∀ a ∈ sep, p a) (h : ∀ text ∈ texts, ∀ a ∈ text, p a) :
    ∀ a ∈ List.intercalate sep texts, p a :=
  of_append (P := fun xs => ∀ a ∈ xs, p a) (List.forall_mem_nil p)
    (fun hxs hys => List.forall_mem_append.mpr ⟨hxs, hys⟩) hsep h

/-- A map of single characters goes into the parts. -/
theorem flatMap_intercalate (f : α → List β) (sep : List α) (texts : List (List α)) :
    (List.intercalate sep texts).flatMap f =
      List.intercalate (sep.flatMap f) (texts.map fun text => text.flatMap f) := by
  induction texts with
  | nil => rfl
  | cons text texts ih =>
    cases texts with
    | nil => rw [List.map_cons, List.map_nil, List.intercalate_singleton, List.intercalate_singleton]
    | cons text' texts =>
      rw [List.map_cons, List.map_cons, List.intercalate_cons_cons, List.intercalate_cons_cons, ← List.map_cons,
        List.flatMap_append, List.flatMap_append, ih]

theorem length_intercalate (sep : List α) (texts : List (List α)) :
    (List.intercalate sep texts).length = (texts.map List.length).sum + (texts.length - 1) * sep.length := by
  induction texts with
  | nil => simp
  | cons text texts ih =>
    cases texts with
    | nil => simp
    | cons text' texts =>
      have hcount : (text :: text' :: texts).length - 1 = (text' :: texts).length - 1 + 1 := rfl
      have hsum : ((text :: text' :: texts).map List.length).sum =
          text.length + ((text' :: texts).map List.length).sum := by rw [List.map_cons, List.sum_cons]
      rw [List.intercalate_cons_cons, List.length_append, List.length_append, ih, hsum, hcount, Nat.succ_mul]
      omega

/-- Parts of some length make up a text of their common length. -/
theorem length_intercalate_ge {k : ℕ} (sep : List α) (h : ∀ text ∈ texts, k ≤ text.length) :
    texts.length * k ≤ (List.intercalate sep texts).length := by
  have hsum : texts.length * k ≤ (texts.map List.length).sum := by
    induction texts with
    | nil => simp
    | cons text texts ih =>
      obtain ⟨htext, htexts⟩ := List.forall_mem_cons.mp h
      have hrest := ih htexts
      rw [List.map_cons, List.sum_cons, List.length_cons, Nat.succ_mul]
      omega
  rw [length_intercalate]
  omega

/-- Splitting what was joined gives the parts back, when empty parts do not count. -/
theorem filter_splitOn_intercalate [DecidableEq α] {sep : α} (hsep : ∀ text ∈ texts, sep ∉ text)
    (hne : ∀ text ∈ texts, text ≠ []) : ((List.intercalate [sep] texts).splitOn sep).filter (· ≠ []) = texts := by
  cases texts with
  | nil => rfl
  | cons text texts =>
    rw [List.splitOn_intercalate sep hsep (List.cons_ne_nil _ _), List.filter_eq_self]
    exact fun text' htext' => decide_eq_true (hne text' htext')

end Separators
