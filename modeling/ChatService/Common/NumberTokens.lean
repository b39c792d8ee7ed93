import ChatService.Common.JsonSoundness
import ChatService.Common.Numbers
import Mathlib.Algebra.Order.Field.Power
import Mathlib.Data.Rat.Cast.Order
import Mathlib.Tactic.Linarith
import Mathlib.Tactic.NormNum
import Mathlib.Tactic.Positivity
import Mathlib.Tactic.Ring

/-!
# What a number token is worth

A number of the grammar is a sign, digits, a fraction and an exponent, in one way (`NumberToken.text_injective`), and
has a value, a rational number.  `strtoll` sees the sign and the digits and stops at the dot or at the letter.  The
number that it gives is the value of the token exactly if the value is an integer and the exponent is zero
(`saturate_integerPart_eq_iff`; at the end of the range of `int64_t` a negative exponent is hidden by the saturation).
-/

namespace ChatService

open Byte JsonGrammar

/-! ### Runs of digits -/

/-- A run of digits ends in one place. -/
theorem digits_unique {d d' r r' : Bytes} (hd : ∀ ch ∈ d, isdigit ch = true) (hd' : ∀ ch ∈ d', isdigit ch = true)
    (hr : StopsDigits r) (hr' : StopsDigits r') (heq : d ++ r = d' ++ r') : d = d' ∧ r = r' := by
  have hsame : d = d' := by
    have htake := congrArg (List.takeWhile isdigit) heq
    rwa [takeWhile_digits_append hd hr, takeWhile_digits_append hd' hr'] at htake
  subst hsame
  exact ⟨rfl, List.append_cancel_left heq⟩

theorem decimal_append (a b : Bytes) : decimal (a ++ b) = decimal a * 10 ^ b.length + decimal b := by
  have hfold : ∀ (b : Bytes) (n : ℕ), b.foldl (fun n ch => n * 10 + (ch.toNat - 0x30)) n =
      n * 10 ^ b.length + decimal b := by
    intro b
    induction b with
    | nil => intro n; simp [decimal]
    | cons ch b ih =>
      intro n
      have hcons : decimal (ch :: b) = (0 * 10 + (ch.toNat - 0x30)) * 10 ^ b.length + decimal b := ih _
      rw [List.foldl_cons, ih, hcons, List.length_cons, pow_succ]
      ring
  rw [decimal, List.foldl_append, hfold]
  rfl

theorem digit_le_nine {ch : UInt8} (h : isdigit ch = true) : ch.toNat - 0x30 ≤ 9 :=
  forall_byte (fun ch => isdigit ch = true → ch.toNat - 0x30 ≤ 9) (by decide +kernel) ch h

theorem decimal_lt {d : Bytes} (h : ∀ ch ∈ d, isdigit ch = true) : decimal d < 10 ^ d.length := by
  induction d with
  | nil => decide
  | cons ch d ih =>
    have hhead := digit_le_nine (h ch List.mem_cons_self)
    have htail := ih fun c hc => h c (List.mem_cons_of_mem _ hc)
    have hsplit := decimal_append [ch] d
    have hdigit : decimal [ch] = ch.toNat - 0x30 := by simp [decimal]
    rw [List.singleton_append, hdigit] at hsplit
    rw [hsplit, List.length_cons, pow_succ]
    nlinarith

/-! ### Tokens -/

/-- A number token in its parts. -/
structure NumberToken where
  sign : Bytes
  digits : Bytes
  fraction : Bytes
  exponent : Bytes
  sign_eq : sign = [] ∨ sign = [minus]
  digits_eq : Digits digits
  fraction_eq : Fraction fraction
  exponent_eq : Exponent exponent

/-- A decimal number with an optional sign. -/
def signedDecimal (text : Bytes) : ℤ :=
  if text.head? = some minus then -(decimal text.tail : ℤ)
  else if text.head? = some plus then decimal text.tail
  else decimal text

namespace NumberToken

variable (t : NumberToken)

def text : Bytes := t.sign ++ t.digits ++ t.fraction ++ t.exponent

/-- All the digits in front of the exponent. -/
def significand : ℕ := decimal (t.digits ++ t.fraction.tail)

/-- How many of them stand behind the dot. -/
def places : ℕ := t.fraction.tail.length

/-- The power of ten that the exponent asks for; it is zero without an exponent. -/
def power : ℤ := signedDecimal t.exponent.tail

/-- What the token means. -/
def value : ℚ :=
  (if t.sign = [minus] then -1 else 1) * t.significand * (10 : ℚ) ^ (t.power - t.places)

/-- The sign and the digits in front of the dot. -/
def integerPart : ℤ := if t.sign = [minus] then -(decimal t.digits : ℤ) else decimal t.digits

theorem text_ne_nil : t.text ≠ [] := by
  intro h
  simp only [text, List.append_eq_nil_iff] at h
  exact t.digits_eq.1 h.1.1.2

theorem digits_fraction_tail : ∀ ch ∈ t.fraction.tail, isdigit ch = true := by
  intro ch hch
  rcases t.fraction_eq with h | ⟨d, h, hd⟩
  · rw [h] at hch
    exact absurd hch (by simp)
  · rw [h] at hch
    exact hd.2 ch hch

theorem stopsDigits_exponent {exponent : Bytes} (h : Exponent exponent) : StopsDigits exponent := by
  rcases h with rfl | ⟨e, sign, d, rfl, he, -, -⟩
  · exact stopsDigits_nil
  · refine stopsDigits_cons (r := sign ++ d) ?_
    rcases he with rfl | rfl <;> decide

theorem stopsDigits_fraction {fraction exponent : Bytes} (h : Fraction fraction) (h' : Exponent exponent) :
    StopsDigits (fraction ++ exponent) := by
  rcases h with rfl | ⟨d, rfl, -⟩
  · exact stopsDigits_exponent h'
  · exact stopsDigits_cons (r := d ++ exponent) (by decide)

/-- An exponent does not begin with a dot. -/
theorem exponent_head {exponent r : Bytes} (h : Exponent exponent) : exponent ≠ dot :: r := by
  rcases h with rfl | ⟨e, sign, d, rfl, he, -, -⟩
  · simp
  · intro heq
    obtain ⟨rfl, -⟩ := List.cons.inj heq
    rcases he with h | h <;> exact absurd h (by decide)

theorem fraction_unique {f f' e e' : Bytes} (hf : Fraction f) (hf' : Fraction f') (he : Exponent e)
    (he' : Exponent e') (heq : f ++ e = f' ++ e') : f = f' ∧ e = e' := by
  rcases hf with rfl | ⟨d, rfl, hd⟩
  · rcases hf' with rfl | ⟨d', rfl, -⟩
    · exact ⟨rfl, heq⟩
    · exact absurd heq (exponent_head he)
  · rcases hf' with rfl | ⟨d', rfl, hd'⟩
    · exact absurd heq.symm (exponent_head he')
    · obtain ⟨rfl, hrest⟩ := digits_unique hd.2 hd'.2 (stopsDigits_exponent he) (stopsDigits_exponent he')
        (List.cons.inj heq).2
      exact ⟨rfl, hrest⟩

/-- A sign is no digit. -/
theorem sign_unique {s s' d d' r r' : Bytes} (hs : s = [] ∨ s = [minus]) (hs' : s' = [] ∨ s' = [minus])
    (hd : Digits d) (hd' : Digits d') (heq : s ++ (d ++ r) = s' ++ (d' ++ r')) : s = s' ∧ d ++ r = d' ++ r' := by
  have hplain : ∀ {d r r' : Bytes}, Digits d → d ++ r ≠ minus :: r' := by
    intro d r r' hd h
    obtain ⟨ch, rest, rfl, hch⟩ := Digits.head hd
    obtain ⟨rfl, -⟩ := List.cons.inj h
    exact absurd hch (by decide)
  rcases hs with rfl | rfl
  · rcases hs' with rfl | rfl
    · exact ⟨rfl, heq⟩
    · exact absurd (show d ++ r = minus :: (d' ++ r') from heq) (hplain hd)
  · rcases hs' with rfl | rfl
    · exact absurd (show d' ++ r' = minus :: (d ++ r) from heq.symm) (hplain hd')
    · exact ⟨rfl, (List.cons.inj heq).2⟩

/-- **A token has its parts in one way**, and so it has one value. -/
theorem text_injective : Function.Injective text := by
  intro t t' h
  obtain ⟨s, d, f, e, hs, hd, hf, he⟩ := t
  obtain ⟨s', d', f', e', hs', hd', hf', he'⟩ := t'
  simp only [text, List.append_assoc] at h
  obtain ⟨rfl, hdigits⟩ := sign_unique hs hs' hd hd' h
  obtain ⟨rfl, hfraction⟩ :=
    digits_unique hd.2 hd'.2 (stopsDigits_fraction hf he) (stopsDigits_fraction hf' he') hdigits
  obtain ⟨rfl, rfl⟩ := fraction_unique hf hf' he he' hfraction
  rfl

/-- What `parseJsonNumberAsString` accepts is a token. -/
theorem exists_of_accepted {text v : Bytes} {pos pos' : ℕ} (h : parseJsonNumberAsString text pos = .ok v pos') :
    ∃ t : NumberToken, t.text = v := by
  obtain ⟨-, s, d, f, e, rfl, hs, hd, hf, he⟩ := parseJsonNumberAsString_sound h
  exact ⟨⟨s, d, f, e, hs, hd, hf, he⟩, rfl⟩

/-! ### The value -/

/-- The digits in front of the dot begin the significand. -/
theorem significand_bounds :
    decimal t.digits * 10 ^ t.places ≤ t.significand ∧ t.significand < (decimal t.digits + 1) * 10 ^ t.places := by
  have hfraction := decimal_lt t.digits_fraction_tail
  have hsplit : t.significand = decimal t.digits * 10 ^ t.places + decimal t.fraction.tail := decimal_append _ _
  rw [places] at hsplit ⊢
  constructor
  · omega
  · rw [hsplit, Nat.add_mul, Nat.one_mul]
    omega

/-- **What stands behind the dot is less than one**, before the exponent shifts it. -/
theorem value_bounds {v : ℚ} (hsign : t.sign = []) (hvalue : t.value = v) :
    (decimal t.digits : ℚ) * 10 ^ t.power ≤ v ∧ v < ((decimal t.digits : ℚ) + 1) * 10 ^ t.power := by
  have hten : (0 : ℚ) < 10 ^ t.places := by positivity
  have hshift : (0 : ℚ) < (10 : ℚ) ^ t.power := by positivity
  have hv : v = t.significand / 10 ^ t.places * (10 : ℚ) ^ t.power := by
    rw [← hvalue, value, hsign, if_neg (by simp), one_mul, zpow_sub₀ (by norm_num), zpow_natCast]
    ring
  have hlow : (decimal t.digits : ℚ) ≤ t.significand / 10 ^ t.places := by
    rw [le_div_iff₀ hten]
    exact_mod_cast t.significand_bounds.1
  have hhigh : (t.significand : ℚ) / 10 ^ t.places < decimal t.digits + 1 := by
    rw [div_lt_iff₀ hten]
    exact_mod_cast t.significand_bounds.2
  rw [hv]
  exact ⟨mul_le_mul_of_nonneg_right hlow hshift.le, mul_lt_mul_of_pos_right hhigh hshift⟩

/-- A token without a sign is not below zero, one with a sign not above. -/
theorem value_sign : (t.sign = [] → 0 ≤ t.value) ∧ (t.sign = [minus] → t.value ≤ 0) := by
  have hpos : (0 : ℚ) ≤ t.significand * (10 : ℚ) ^ (t.power - t.places) := by positivity
  constructor
  · intro h
    rw [value, h, if_neg (by simp), one_mul]
    exact hpos
  · intro h
    rw [value, h, if_pos rfl, neg_one_mul, neg_mul]
    exact neg_nonpos.mpr hpos

/-- A token that is worth nothing has no digit but zero. -/
theorem digits_eq_zero_of_value (h : t.value = 0) : decimal t.digits = 0 := by
  have hsignificand : t.significand = 0 := by
    have hshift : (10 : ℚ) ^ (t.power - t.places) ≠ 0 := by positivity
    rw [value, mul_eq_zero, mul_eq_zero] at h
    rcases h with (h | h) | h
    · split_ifs at h <;> norm_num at h
    · exact_mod_cast h
    · exact absurd h hshift
  have hlow := t.significand_bounds.1
  rw [hsignificand] at hlow
  have hten : 0 < 10 ^ t.places := by positivity
  rcases Nat.eq_zero_or_pos (decimal t.digits) with h | h
  · exact h
  · exact absurd hlow (by have := Nat.mul_pos h hten; omega)

/-! ### What `strtoll` reads -/

/-- **`strtoll` stops at the dot or at the letter.** -/
theorem strtoll_text : strtoll t.text = some (saturate t.integerPart) := by
  have hrest := stopsDigits_fraction t.fraction_eq t.exponent_eq
  rw [text, integerPart, List.append_assoc, List.append_assoc]
  rcases t.sign_eq with hsign | hsign
  · rw [hsign, if_neg (by simp), List.nil_append]
    exact strtoll_digits_append t.digits_eq hrest
  · rw [hsign, if_pos rfl, List.singleton_append]
    exact strtoll_minus_append t.digits_eq hrest

/-- A token that is not worth more than zero is not read as more than zero. -/
theorem saturate_nonpos {v : ℤ} (hvalue : t.value = v) (hv : v ≤ 0) : saturate t.integerPart ≤ 0 := by
  have hpart : t.integerPart ≤ 0 := by
    rw [integerPart]
    split_ifs with hsign
    · omega
    · have hplain : t.sign = [] := t.sign_eq.resolve_right hsign
      have hzero : t.value = 0 := by
        refine le_antisymm ?_ (t.value_sign.1 hplain)
        rw [hvalue]
        exact_mod_cast hv
      rw [t.digits_eq_zero_of_value hzero]
      rfl
  rw [saturate]
  omega

/-- **When the number that is read is the value**: without an exponent that moves the dot. -/
theorem saturate_integerPart_eq_iff {v : ℤ} (hvalue : t.value = v) (hpos : 0 < v) (hrange : v < 2 ^ 63) :
    saturate t.integerPart = v ↔ t.power = 0 ∨ (v = 9223372036854775807 ∧ t.power < 0) := by
  have hsign : t.sign = [] := by
    refine t.sign_eq.resolve_right fun h => ?_
    have hneg := t.value_sign.2 h
    rw [hvalue] at hneg
    have : v ≤ 0 := by exact_mod_cast hneg
    omega
  have hpart : t.integerPart = decimal t.digits := by rw [integerPart, if_neg (by rw [hsign]; simp)]
  obtain ⟨hlow, hhigh⟩ := t.value_bounds hsign hvalue
  generalize decimal t.digits = n at hpart hlow hhigh
  have hsaturate : saturate t.integerPart = min (n : ℤ) 9223372036854775807 := by
    rw [hpart, saturate]
    omega
  rw [hsaturate]
  rcases lt_trichotomy t.power 0 with hpower | hpower | hpower
  · -- the dot moves to the left, and the digits say at least ten times the value
    obtain ⟨m, hm⟩ := Int.exists_eq_neg_ofNat hpower.le
    have hten : (0 : ℚ) < 10 ^ m := by positivity
    rw [hm, zpow_neg, zpow_natCast, ← div_eq_mul_inv, div_le_iff₀ hten] at hlow
    have hlow' : (n : ℤ) ≤ v * 10 ^ m := by exact_mod_cast hlow
    rw [hm, zpow_neg, zpow_natCast, ← div_eq_mul_inv, lt_div_iff₀ hten] at hhigh
    have hhigh' : v * 10 ^ m < (n : ℤ) + 1 := by exact_mod_cast hhigh
    have hmove : v * 10 ≤ v * 10 ^ m := by
      have hone : (10 : ℤ) ^ 1 ≤ 10 ^ m := pow_le_pow_right₀ (by norm_num) (by omega)
      exact mul_le_mul_of_nonneg_left hone hpos.le
    omega
  · rw [hpower, zpow_zero, mul_one] at hlow hhigh
    have hlow' : (n : ℤ) ≤ v := by exact_mod_cast hlow
    have hhigh' : v < (n : ℤ) + 1 := by exact_mod_cast hhigh
    constructor
    · intro _
      exact .inl hpower
    · intro _
      omega
  · -- the dot moves to the right, and the digits say at most a tenth of the value
    obtain ⟨m, hm⟩ := Int.eq_ofNat_of_zero_le hpower.le
    rw [hm, zpow_natCast] at hlow
    have hlow' : (n : ℤ) * 10 ^ m ≤ v := by exact_mod_cast hlow
    have hmove : (n : ℤ) * 10 ≤ n * 10 ^ m := by
      have hone : (10 : ℤ) ^ 1 ≤ 10 ^ m := pow_le_pow_right₀ (by norm_num) (by omega)
      exact mul_le_mul_of_nonneg_left hone (Int.natCast_nonneg n)
    omega

end NumberToken

end ChatService
