import Mathlib.Data.Int.Log
import Mathlib.Data.Rat.Floor
import Mathlib.Algebra.Order.Field.Basic
import Mathlib.Tactic.Linarith
import Mathlib.Tactic.Positivity
import Mathlib.Tactic.Ring

/-!
# Doubles: reading and writing decimals

A decimal is read as the nearest double, and a double is written with as few digits as are read back as the
same double.  Values are rationals; nothing is told apart about zeros.
-/

namespace Binary64

/-- The distance of the doubles around `x`. -/
def spacing (x : ℚ) : ℚ := 2 ^ max (Int.log 2 |x| - 52) (-1074)

/-- The nearest integer; of two that are equally near, the even one. -/
def roundEven (q : ℚ) : ℤ :=
  if q - ⌊q⌋ < 1 / 2 ∨ q - ⌊q⌋ = 1 / 2 ∧ ⌊q⌋ % 2 = 0 then ⌊q⌋ else ⌊q⌋ + 1

/-- The nearest double, if doubles had no largest exponent. -/
def nearest (x : ℚ) : ℚ := roundEven (x / spacing x) * spacing x

/-- The nearest double, if it is finite. -/
def round (x : ℚ) : Option ℚ := if |nearest x| < 2 ^ 1024 then some (nearest x) else none

theorem spacing_pos (x : ℚ) : 0 < spacing x := by
  rw [spacing]
  exact zpow_pos (by norm_num) _

/-! ### The nearest integer -/

/-- An integer is the nearest integer. -/
theorem roundEven_intCast (n : ℤ) : roundEven n = n := by
  rw [roundEven, Int.floor_intCast, sub_self]
  exact if_pos (.inl (by norm_num))

/-- Rounding does not go below an integer. -/
theorem le_roundEven {n : ℤ} {q : ℚ} (h : (n : ℚ) ≤ q) : n ≤ roundEven q := by
  have hfloor : n ≤ ⌊q⌋ := Int.le_floor.mpr h
  rw [roundEven]
  split_ifs <;> omega

/-- Rounding does not go above an integer. -/
theorem roundEven_le {n : ℤ} {q : ℚ} (h : q ≤ n) : roundEven q ≤ n := by
  rcases h.eq_or_lt with rfl | hlt
  · rw [roundEven_intCast]
  · have hfloor : ⌊q⌋ < n := Int.floor_lt.mpr hlt
    rw [roundEven]
    split_ifs <;> omega

/-- The nearest integer is at most one half away. -/
theorem abs_roundEven_sub_le (q : ℚ) : |(roundEven q : ℚ) - q| ≤ 1 / 2 := by
  have hfloor := Int.floor_le q
  have hceil := Int.lt_floor_add_one q
  rw [roundEven, abs_le]
  split_ifs with hdown
  · have hhalf : q - ⌊q⌋ ≤ 1 / 2 := hdown.elim le_of_lt fun h => h.1.le
    constructor <;> linarith
  · have hhalf : 1 / 2 ≤ q - ⌊q⌋ := not_lt.mp fun h => hdown (.inl h)
    rw [Int.cast_add, Int.cast_one]
    constructor <;> linarith

/-! ### The nearest double -/

/-- What is not negative is rounded to what is not negative. -/
theorem nearest_nonneg {x : ℚ} (hx : 0 ≤ x) : 0 ≤ nearest x := by
  have hrounded : 0 ≤ roundEven (x / spacing x) :=
    le_roundEven (by rw [Int.cast_zero]; exact div_nonneg hx (spacing_pos x).le)
  exact mul_nonneg (Int.cast_nonneg hrounded) (spacing_pos x).le

/-- What is not negative is read as a double that is not negative. -/
theorem round_nonneg {x y : ℚ} (hx : 0 ≤ x) (h : round x = some y) : 0 ≤ y := by
  rw [round] at h
  split_ifs at h
  obtain rfl := Option.some.inj h
  exact nearest_nonneg hx

/-- Multiples of the distance are not crossed from above. -/
theorem mul_spacing_le_nearest {x : ℚ} {k : ℤ} (h : k * spacing x ≤ x) : k * spacing x ≤ nearest x := by
  have hquotient : (k : ℚ) ≤ x / spacing x := (le_div_iff₀ (spacing_pos x)).mpr h
  exact mul_le_mul_of_nonneg_right (Int.cast_le.mpr (le_roundEven hquotient)) (spacing_pos x).le

/-- Multiples of the distance are not crossed from below. -/
theorem nearest_le_mul_spacing {x : ℚ} {k : ℤ} (h : x ≤ k * spacing x) : nearest x ≤ k * spacing x := by
  have hquotient : x / spacing x ≤ (k : ℚ) := (div_le_iff₀ (spacing_pos x)).mpr h
  exact mul_le_mul_of_nonneg_right (Int.cast_le.mpr (roundEven_le hquotient)) (spacing_pos x).le

/-- Below `2 ^ 53` every integer is a multiple of the distance. -/
theorem exists_mul_spacing {x : ℚ} (h : |x| < 2 ^ 53) (n : ℤ) : ∃ k : ℤ, (n : ℚ) = k * spacing x := by
  have hlog : Int.log 2 |x| < 53 := by
    rcases eq_or_ne x 0 with rfl | hx
    · simp
    · exact (Int.lt_zpow_iff_log_lt (by norm_num) (abs_pos.mpr hx)).mp (by rwa [zpow_ofNat])
  obtain ⟨k, hk⟩ : ∃ k : ℕ, max (Int.log 2 |x| - 52) (-1074) = -(k : ℤ) :=
    ⟨(-max (Int.log 2 |x| - 52) (-1074)).toNat, by omega⟩
  have hspacing : 2 ^ k * spacing x = 1 := by
    rw [spacing, hk, zpow_neg, zpow_natCast, mul_inv_cancel₀ (by positivity)]
  exact ⟨n * 2 ^ k, by rw [Int.cast_mul, Int.cast_pow, Int.cast_ofNat, mul_assoc, hspacing, mul_one]⟩

/-- **An integer below `2 ^ 53`** is a double itself. -/
theorem nearest_intCast {n : ℤ} (h : |n| < 2 ^ 53) : nearest n = n := by
  obtain ⟨k, hk⟩ := exists_mul_spacing (x := n) (by exact_mod_cast h) n
  have hlow := mul_spacing_le_nearest hk.ge
  have hhigh := nearest_le_mul_spacing hk.le
  rw [← hk] at hlow hhigh
  exact le_antisymm hhigh hlow

@[simp] theorem nearest_zero : nearest 0 = 0 := by
  exact_mod_cast nearest_intCast (n := 0) (by norm_num)

theorem round_intCast {n : ℤ} (h : |n| < 2 ^ 53) : round n = some (n : ℚ) := by
  have habs : |(n : ℚ)| < 2 ^ 53 := by exact_mod_cast h
  rw [round, nearest_intCast h, if_pos (habs.trans (pow_lt_pow_right₀ (by norm_num) (by norm_num)))]

/-- Rounding does not go above an integer. -/
theorem nearest_le_intCast {x : ℚ} {n : ℤ} (hx : |x| < 2 ^ 53) (h : x ≤ n) : nearest x ≤ n := by
  obtain ⟨k, hk⟩ := exists_mul_spacing hx n
  rw [hk] at h ⊢
  exact nearest_le_mul_spacing h

/-- Rounding does not go below an integer that is not above `2 ^ 53`. -/
theorem intCast_le_nearest {x : ℚ} {n : ℤ} (hx : 0 ≤ x) (hn : n ≤ 2 ^ 53) (h : n ≤ x) : n ≤ nearest x := by
  rcases lt_or_ge x (2 ^ 53) with hlt | hge
  · obtain ⟨k, hk⟩ := exists_mul_spacing (by rwa [abs_of_nonneg hx]) n
    rw [hk] at h ⊢
    exact mul_spacing_le_nearest h
  · -- from `2 ^ 53` on the largest power of two below `x` is a multiple of the distance
    have hpos : 0 < x := lt_of_lt_of_le (by norm_num) hge
    have hpower : (2 : ℚ) ^ Int.log 2 x ≤ x := Int.zpow_log_le_self (by norm_num) hpos
    have hlog : 53 ≤ Int.log 2 x := (Int.zpow_le_iff_le_log (by norm_num) hpos).mp (by rwa [zpow_ofNat])
    have hspacing : (((2 ^ 52 : ℕ) : ℤ) : ℚ) * spacing x = 2 ^ Int.log 2 x := by
      rw [spacing, abs_of_pos hpos, max_eq_left (by omega), Int.cast_natCast, Nat.cast_pow, Nat.cast_ofNat,
        ← zpow_natCast, ← zpow_add₀ (by norm_num)]
      congr 1
      push_cast
      omega
    calc (n : ℚ) ≤ 2 ^ 53 := by exact_mod_cast hn
      _ = 2 ^ (53 : ℤ) := (zpow_ofNat _ _).symm
      _ ≤ 2 ^ Int.log 2 x := zpow_le_zpow_right₀ (by norm_num) hlog
      _ = ((2 ^ 52 : ℕ) : ℤ) * spacing x := hspacing.symm
      _ ≤ nearest x := mul_spacing_le_nearest (by rw [hspacing]; exact hpower)

/-- **The relative error** of a value that is not too small: one half of the distance, which is the value divided by
`2 ^ 52` at most. -/
theorem abs_nearest_sub_le {x : ℚ} (h : 2 ^ (-1022 : ℤ) ≤ |x|) : |nearest x - x| ≤ |x| / 2 ^ 53 := by
  have hpos : 0 < |x| := lt_of_lt_of_le (zpow_pos (by norm_num) _) h
  have hlog : -1022 ≤ Int.log 2 |x| := (Int.zpow_le_iff_le_log (by norm_num) hpos).mp h
  have hspacing : spacing x * 2 ^ 52 ≤ |x| := by
    rw [spacing, max_eq_left (by omega), ← zpow_natCast, ← zpow_add₀ (by norm_num)]
    have hexponent : Int.log 2 |x| - 52 + ((52 : ℕ) : ℤ) = Int.log 2 |x| := by omega
    rw [hexponent]
    exact Int.zpow_log_le_self (by norm_num) hpos
  have herror : |nearest x - x| = |(roundEven (x / spacing x) : ℚ) - x / spacing x| * spacing x := by
    rw [← abs_of_pos (spacing_pos x), ← abs_mul, abs_of_pos (spacing_pos x), sub_mul,
      div_mul_cancel₀ _ (spacing_pos x).ne', nearest]
  rw [herror]
  calc |(roundEven (x / spacing x) : ℚ) - x / spacing x| * spacing x ≤ 1 / 2 * spacing x :=
        mul_le_mul_of_nonneg_right (abs_roundEven_sub_le _) (spacing_pos x).le
    _ = spacing x * 2 ^ 52 / 2 ^ 53 := by ring
    _ ≤ |x| / 2 ^ 53 := div_le_div_of_nonneg_right hspacing (by positivity)

/-- What is not too small keeps its sign. -/
theorem nearest_neg {x : ℚ} (h : 2 ^ (-1022 : ℤ) ≤ -x) : nearest x < 0 := by
  have hneg : x < 0 := neg_pos.mp (lt_of_lt_of_le (zpow_pos (by norm_num) _) h)
  have herror := abs_nearest_sub_le (h.trans (neg_le_abs x))
  rw [abs_of_neg hneg, abs_le] at herror
  linarith [herror.2]

/-! ### Writing -/

/-- `k` digits and the place of the decimal point behind the first `n` of them, if `k` digits are enough for the
positive double `x`.  Of two numbers that would do, the nearer one. -/
def digits? (x : ℚ) (k : ℕ) : Option (ℕ × ℤ) :=
  let n := Int.log 10 x + 1
  let scale : ℚ := 10 ^ (n - k)
  let below := ⌊x / scale⌋.toNat
  let fits (s : ℕ) : Bool := round (s * scale) = some x
  let nearer : Bool := 2 * x < (2 * below + 1) * scale ∨ 2 * x = (2 * below + 1) * scale ∧ below % 2 = 0
  if fits below ∧ (nearer ∨ ¬ fits (below + 1)) then some (below, n)
  else if fits (below + 1) then if below + 1 = 10 ^ k then some (1, n + 1) else some (below + 1, n)
  else none

/-- The shortest digits of a positive double; 17 are always enough. -/
def shortest (x : ℚ) : ℕ × ℤ := ((List.range 17).findSome? fun k => digits? x (k + 1)).getD (0, 0)

example : (round (1 / 10)).map shortest = some (1, 0) ∧ round (2 ^ 1024 - 2 ^ 970) = none := by decide +kernel

end Binary64
