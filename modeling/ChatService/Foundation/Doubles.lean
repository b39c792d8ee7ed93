import Mathlib.Algebra.Order.Ring.Int
import Mathlib.Data.Nat.Size
import Mathlib.Algebra.Order.Group.Unbundled.Abs

/-!
# Integers as doubles

A JSON number is read as the nearest double; of two that are equally near, the one with an even
significand.  An integer below `2 ^ 53` is a double itself.  A program that writes an integer double in
decimal may stop at the shortest digits that are read back as the same double.
-/

namespace Doubles

/-- The nearest double, of a natural number. -/
def roundNat (n : ℕ) : ℕ :=
  let unit := 2 ^ (n.size - 53)
  if 2 * (n % unit) > unit ∨ 2 * (n % unit) = unit ∧ n / unit % 2 = 1 then (n / unit + 1) * unit
  else n / unit * unit

/-- The nearest double. -/
def round (n : ℤ) : ℤ := if 0 ≤ n then roundNat n.toNat else -roundNat (-n).toNat

theorem roundNat_of_lt {n : ℕ} (h : n < 2 ^ 53) : roundNat n = n := by
  have hsize : n.size - 53 = 0 := by
    have hle : n.size ≤ 53 := Nat.size_le.mpr h
    omega
  simp [roundNat, hsize, Nat.mod_one]

/-- An integer below `2 ^ 53` is kept. -/
theorem round_of_lt {n : ℤ} (h : |n| < 2 ^ 53) : round n = n := by
  have hn := abs_lt.mp h
  rw [round]
  split_ifs with hsign
  · rw [roundNat_of_lt (by omega)]
    omega
  · rw [roundNat_of_lt (by omega)]
    omega

/-- The digits that stand for a double when `e` zeros follow, if there are any; the nearer ones. -/
def digitsBefore (n : ℕ) (e : ℕ) : Option ℕ :=
  let below := n / 10 ^ e
  let above := below + 1
  let fits (s : ℕ) : Bool := roundNat (s * 10 ^ e) == n
  let nearer : Bool := n - below * 10 ^ e < above * 10 ^ e - n ∨
    n - below * 10 ^ e = above * 10 ^ e - n ∧ below % 2 = 0
  if fits below ∧ (nearer ∨ ¬ fits above) then some below
  else if fits above then some above
  else none

/-- The decimal text of a double that is a natural number below `10 ^ 21`: as few digits as there can be,
and zeros. -/
def shortestDigits (n : ℕ) : List Char :=
  if n = 0 then ['0']
  else ((List.range 21).reverse.findSome? fun e =>
    (digitsBefore n e).map fun s => Nat.toDigits 10 s ++ List.replicate e '0').getD []

/-- The decimal text of a double that is an integer. -/
def shortestText (n : ℤ) : List Char :=
  if 0 ≤ n then shortestDigits n.toNat else '-' :: shortestDigits (-n).toNat

example : shortestText (round 9223372036854775807) = "9223372036854776000".toList := by decide +kernel

/-- Nothing else has an integer below `2 ^ 53` as its nearest double. -/
theorem eq_of_roundNat {m n : ℕ} (hn : n < 2 ^ 53) (h : roundNat m = n) : m = n := by
  rcases Nat.lt_or_ge m (2 ^ 53) with hm | hm
  · rw [← h, roundNat_of_lt hm]
  · exfalso
    have hsize : 53 < m.size := Nat.lt_size.mpr hm
    have hlow : 2 ^ (m.size - 1) ≤ m := Nat.lt_size.mp (by omega)
    have hunit : 2 ^ 52 * 2 ^ (m.size - 53) = 2 ^ (m.size - 1) := by
      rw [← pow_add]
      congr 1
      omega
    have htwo : 2 ≤ 2 ^ (m.size - 53) := Nat.le_self_pow (by omega) 2
    have hquotient : 2 ^ 52 ≤ m / 2 ^ (m.size - 53) :=
      (Nat.le_div_iff_mul_le (by omega)).mpr (hunit ▸ hlow)
    have hbelow : 2 ^ 52 * 2 ≤ m / 2 ^ (m.size - 53) * 2 ^ (m.size - 53) := Nat.mul_le_mul hquotient htwo
    have habove : m / 2 ^ (m.size - 53) * 2 ^ (m.size - 53) ≤ roundNat m := by
      rw [roundNat]
      split_ifs
      · exact Nat.mul_le_mul_right _ (Nat.le_succ _)
      · exact le_rfl
    omega

/-- Only zero is read as zero. -/
theorem round_ne_zero {n : ℤ} (h : n ≠ 0) : round n ≠ 0 := by
  have hnat : ∀ m : ℕ, m ≠ 0 → roundNat m ≠ 0 := fun m hm hzero => hm (eq_of_roundNat (n := 0) (by decide) hzero)
  rw [round]
  split_ifs with hsign
  · exact Nat.cast_ne_zero.mpr (hnat _ (by omega))
  · exact neg_ne_zero.mpr (Nat.cast_ne_zero.mpr (hnat _ (by omega)))

theorem toDigits_mul_pow {s : ℕ} (h : 0 < s) (e : ℕ) :
    Nat.toDigits 10 (s * 10 ^ e) = Nat.toDigits 10 s ++ List.replicate e '0' := by
  induction e with
  | zero => simp
  | succ e ih =>
    have hpos : 0 < s * 10 ^ e := Nat.mul_pos h (Nat.pow_pos (by omega))
    have hstep := Nat.toDigits_append_toDigits (b := 10) (n := s * 10 ^ e) (d := 0) (by omega) hpos (by omega)
    have hmul : s * 10 ^ (e + 1) = 10 * (s * 10 ^ e) + 0 := by
      rw [pow_succ, Nat.add_zero, ← Nat.mul_assoc, Nat.mul_comm]
    rw [hmul, ← hstep, ih, List.append_assoc, List.replicate_succ']
    rfl

theorem round_of_digitsBefore {n e s : ℕ} (h : digitsBefore n e = some s) : roundNat (s * 10 ^ e) = n := by
  simp only [digitsBefore] at h
  split_ifs at h with hbelow habove
  · rw [← Option.some.inj h]
    exact eq_of_beq hbelow.1
  · rw [← Option.some.inj h]
    exact eq_of_beq habove

/-- **An integer below `2 ^ 53`** is written with all its digits. -/
theorem shortestDigits_of_lt {n : ℕ} (h : n < 2 ^ 53) : shortestDigits n = Nat.toDigits 10 n := by
  rw [shortestDigits]
  split_ifs with hzero
  · rw [hzero]
    rfl
  · have hself : digitsBefore n 0 = some n := by
      simp [digitsBefore, roundNat_of_lt h]
    cases hfind : (List.range 21).reverse.findSome? fun e =>
        (digitsBefore n e).map fun s => Nat.toDigits 10 s ++ List.replicate e '0' with
    | none =>
      have hnone := List.findSome?_eq_none_iff.mp hfind 0 (by simp)
      rw [hself] at hnone
      exact absurd hnone (by simp)
    | some text =>
      obtain ⟨e, -, he⟩ := List.exists_of_findSome?_eq_some hfind
      obtain ⟨s, hs, rfl⟩ := Option.map_eq_some_iff.mp he
      have hn := eq_of_roundNat h (round_of_digitsBefore hs)
      have hpos : 0 < s := by
        rcases Nat.eq_zero_or_pos s with rfl | hpos
        · omega
        · exact hpos
      rw [Option.getD_some, ← toDigits_mul_pow hpos, hn]

theorem shortestText_of_lt {n : ℕ} (h : n < 2 ^ 53) : shortestText n = Nat.toDigits 10 n := by
  rw [shortestText, if_pos (Int.natCast_nonneg n), Int.toNat_natCast, shortestDigits_of_lt h]

end Doubles
