import Mathlib.Data.List.TakeDrop

/-!
# Slices of a list, and writing in place

`slice l i j` is the part of `l` from position `i` up to `j`, `overwrite l i xs` is `l` with `xs` written over
it from position `i` on, and `resize l n a` is `l` cut or filled up with `a` to length `n`.
-/

namespace Slices

variable {α : Type*}

def slice (l : List α) (i j : ℕ) : List α := (l.drop i).take (j - i)

def overwrite (l : List α) (i : ℕ) (xs : List α) : List α := l.take i ++ xs ++ l.drop (i + xs.length)

def resize (l : List α) (n : ℕ) (a : α) : List α := l.take n ++ List.replicate (n - l.length) a

variable {l xs : List α} {i j k n : ℕ} {a : α}

theorem length_slice (h : j ≤ l.length) : (slice l i j).length = j - i := by
  rw [slice, List.length_take, List.length_drop]
  omega

theorem length_overwrite (h : i + xs.length ≤ l.length) : (overwrite l i xs).length = l.length := by
  simp only [overwrite, List.length_append, List.length_take, List.length_drop]
  omega

theorem length_resize : (resize l n a).length = n := by
  simp only [resize, List.length_append, List.length_take, List.length_replicate]
  omega

theorem slice_self (i : ℕ) : slice l i i = [] := by simp [slice]

/-- Neighbouring slices make one. -/
theorem slice_append_slice (hij : i ≤ j) (hjk : j ≤ k) : slice l i j ++ slice l j k = slice l i k := by
  have hlength : k - i = (j - i) + (k - j) := by omega
  have hdrop : (l.drop i).drop (j - i) = l.drop j := by
    rw [List.drop_drop]
    congr 1
    omega
  rw [slice, slice, slice, hlength, List.take_add, hdrop]

theorem drop_slice (n : ℕ) : (slice l i j).drop n = slice l (i + n) j := by
  rw [slice, slice, List.drop_take, List.drop_drop]
  congr 1
  omega

theorem take_slice (hkj : k ≤ j) : (slice l i j).take (k - i) = slice l i k := by
  rw [slice, slice, List.take_take]
  congr 1
  omega

/-- What is written can be read. -/
theorem slice_overwrite_self (h : i ≤ l.length) : slice (overwrite l i xs) i (i + xs.length) = xs := by
  have hlength : (l.take i).length = i := by
    rw [List.length_take]
    omega
  have hdrop : (overwrite l i xs).drop i = xs ++ l.drop (i + xs.length) := by
    rw [overwrite, List.append_assoc]
    exact List.drop_left' hlength
  rw [slice, hdrop, Nat.add_sub_cancel_left]
  exact List.take_left' rfl

/-- What stands before the place of writing stays. -/
theorem slice_overwrite_before (h : i ≤ l.length) (hji : k ≤ i) :
    slice (overwrite l i xs) j k = slice l j k := by
  have htake : ∀ m : List α, (m.drop j).take (k - j) = (m.take k).drop j := by
    intro m
    rw [List.drop_take]
  have hlength : (l.take i).length = i := by
    rw [List.length_take]
    omega
  rw [slice, slice, htake, htake, overwrite, List.append_assoc, List.take_append_of_le_length (by omega),
    List.take_take]
  congr 2
  omega

/-- What stands behind it stays, too. -/
theorem slice_overwrite_after (h : i + xs.length ≤ l.length) (hj : i + xs.length ≤ j) :
    slice (overwrite l i xs) j k = slice l j k := by
  have hlength : (l.take i ++ xs).length = i + xs.length := by
    rw [List.length_append, List.length_take]
    omega
  have hdrop : (overwrite l i xs).drop j = l.drop j := by
    rw [overwrite, List.drop_append, hlength, List.drop_eq_nil_of_le (by omega), List.nil_append,
      List.drop_drop]
    congr 1
    omega
  rw [slice, slice, hdrop]

theorem slice_resize (hk : k ≤ l.length) (hn : l.length ≤ n) : slice (resize l n a) j k = slice l j k := by
  have htake : ∀ m : List α, (m.drop j).take (k - j) = (m.take k).drop j := by
    intro m
    rw [List.drop_take]
  rw [slice, slice, htake, htake, resize, List.take_of_length_le hn, List.take_append_of_le_length hk]

end Slices
