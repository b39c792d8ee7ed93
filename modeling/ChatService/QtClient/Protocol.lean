import ChatService.Foundation.Doubles
import ChatService.Foundation.Words
import Mathlib.Algebra.Order.Floor.Ring
import Mathlib.Data.Rat.Floor

/-!
# What the Qt client reads of an object (`qt-client/src/Protocol.cpp`)

A `QString` is the list of its characters; the texts that are compared by `<` here, the keys of messages,
are ASCII.  `stringValue` and `int64Value` never fail: what is missing or of another type is empty or 0.  A
number that the server wrote reads the same from a JSON number and from a JSON string (`int64Value_double`,
`int64Value_string`).
-/

namespace ChatService

namespace Qt

abbrev QString := List Char

inductive QJsonValue where
  | null
  | bool (value : Bool)
  /-- a finite double -/
  | double (value : ℚ)
  | string (text : QString)
  | array (values : List QJsonValue)
  | object (members : List (QString × QJsonValue))

/-- The members, each name at most once. -/
abbrev QJsonObject := List (QString × QJsonValue)

/-- `QChar::isSpace`. -/
def isSpace (c : Char) : Bool :=
  [0x09, 0x0a, 0x0b, 0x0c, 0x0d, 0x20, 0x85, 0xa0, 0x1680, 0x2028, 0x2029, 0x202f, 0x205f, 0x3000].contains c.toNat ||
    (0x2000 ≤ c.toNat && c.toNat ≤ 0x200a)

/-- `QString::trimmed`. -/
def trimmed (text : QString) : QString := Words.trim isSpace text

/-- `QString::number` of a `qint64`. -/
def number (n : ℤ) : QString := if 0 ≤ n then Nat.toDigits 10 n.toNat else '-' :: Nat.toDigits 10 (-n).toNat

/-- A `qint64` from a sign and digits; anything else, and what does not fit, is no number. -/
def signedDigits (sign : ℤ) (digits : QString) : Option ℤ :=
  if digits ≠ [] ∧ digits.all Char.isDigit then
    let n := sign * Nat.ofDigitChars 10 digits 0
    if -9223372036854775808 ≤ n ∧ n ≤ 9223372036854775807 then some n else none
  else none

/-- `QString::toLongLong`, base 10. -/
def toLongLong (text : QString) : Option ℤ :=
  match trimmed text with
  | '-' :: digits => signedDigits (-1) digits
  | '+' :: digits => signedDigits 1 digits
  | digits => signedDigits 1 digits

/-- `static_cast<qint64>`: towards zero. -/
def truncate (x : ℚ) : ℤ := x.num.tdiv x.den

/-- `object.value(key)`. -/
def value (object : QJsonObject) (key : String) : QJsonValue := (object.lookup key.toList).getD .null

def stringValue (object : QJsonObject) (key : String) : QString :=
  match value object key with
  | .string text => text
  | _ => []

def int64Value (object : QJsonObject) (key : String) (fallback : ℤ) : ℤ :=
  match value object key with
  | .double x => truncate x
  | .string text => (toLongLong text).getD fallback
  | _ => fallback

example : int64Value [("id".toList, .string " -12 ".toList)] "id" 0 = -12 := by decide +kernel

/-! ### Numbers are read back -/

theorem truncate_intCast (n : ℤ) : truncate n = n := by
  rw [truncate, Rat.num_intCast, Rat.den_intCast]
  exact Int.tdiv_one n

/-- A digit is neither a space nor a sign. -/
theorem digit_plain {c : Char} (h : c.isDigit = true) : isSpace c = false ∧ c ≠ '-' ∧ c ≠ '+' := by
  have hrange : 48 ≤ c.toNat ∧ c.toNat ≤ 57 := by
    simpa [Char.isDigit, UInt32.le_iff_toNat_le] using h
  refine ⟨?_, ?_, ?_⟩
  · rw [isSpace, Bool.or_eq_false_iff, List.contains_eq_any_beq]
    constructor
    · simp only [List.any_cons, List.any_nil, Bool.or_false, Bool.or_eq_false_iff, beq_eq_false_iff_ne]
      omega
    · simp only [Bool.and_eq_false_iff, decide_eq_false_iff_not]
      omega
  · rintro rfl
    exact absurd hrange.1 (by decide)
  · rintro rfl
    exact absurd hrange.1 (by decide)

theorem isDigit_toDigits {n : ℕ} {c : Char} (h : c ∈ Nat.toDigits 10 n) : c.isDigit = true :=
  Nat.isDigit_of_mem_toDigits (by omega) (by omega) h

theorem signedDigits_toDigits {sign : ℤ} {n : ℕ} (hlow : -9223372036854775808 ≤ sign * n)
    (hhigh : sign * n ≤ 9223372036854775807) : signedDigits sign (Nat.toDigits 10 n) = some (sign * n) := by
  have hdigits : Nat.toDigits 10 n ≠ [] ∧ (Nat.toDigits 10 n).all Char.isDigit = true :=
    ⟨Nat.toDigits_ne_nil, List.all_eq_true.mpr fun c hc => isDigit_toDigits hc⟩
  rw [signedDigits, if_pos hdigits, Nat.ofDigitChars_ten_toDigits]
  exact if_pos ⟨hlow, hhigh⟩

/-- Digits begin with no sign. -/
theorem toLongLong_digits (n : ℕ) : toLongLong (Nat.toDigits 10 n) = signedDigits 1 (Nat.toDigits 10 n) := by
  have htrim : trimmed (Nat.toDigits 10 n) = Nat.toDigits 10 n :=
    Words.trim_eq_self fun c hc => (digit_plain (isDigit_toDigits hc)).1
  rw [toLongLong, htrim]
  split
  · next digits heq =>
    have hmem : '-' ∈ Nat.toDigits 10 n := heq ▸ List.mem_cons_self
    exact absurd rfl (digit_plain (isDigit_toDigits hmem)).2.1
  · next digits heq =>
    have hmem : '+' ∈ Nat.toDigits 10 n := heq ▸ List.mem_cons_self
    exact absurd rfl (digit_plain (isDigit_toDigits hmem)).2.2
  · rfl

theorem toLongLong_minus (n : ℕ) :
    toLongLong ('-' :: Nat.toDigits 10 n) = signedDigits (-1) (Nat.toDigits 10 n) := by
  have htrim : trimmed ('-' :: Nat.toDigits 10 n) = '-' :: Nat.toDigits 10 n := by
    refine Words.trim_eq_self ?_
    rw [List.forall_mem_cons]
    exact ⟨by decide, fun c hc => (digit_plain (isDigit_toDigits hc)).1⟩
  rw [toLongLong, htrim]
  rfl

/-- **A number is read back.** -/
theorem toLongLong_number {n : ℤ} (hlow : -9223372036854775808 ≤ n) (hhigh : n ≤ 9223372036854775807) :
    toLongLong (number n) = some n := by
  rw [number]
  split_ifs with hsign
  · rw [toLongLong_digits, signedDigits_toDigits (by omega) (by omega)]
    congr 1
    omega
  · rw [toLongLong_minus, signedDigits_toDigits (by omega) (by omega)]
    congr 1
    omega

/-- No two numbers have the same text. -/
theorem number_inj {m n : ℤ} (hm : 0 ≤ m) (hn : 0 ≤ n) (h : number m = number n) : m = n := by
  rw [number, number, if_pos hm, if_pos hn] at h
  have hnat : m.toNat = n.toNat := by
    rw [← Nat.ofDigitChars_ten_toDigits (n := m.toNat), h, Nat.ofDigitChars_ten_toDigits]
  omega

section

variable {object : QJsonObject} {key : String} {n : ℤ}

/-- A number that was written as a number. -/
theorem int64Value_double (h : value object key = .double (Doubles.round n)) (hsmall : |n| < 2 ^ 53)
    (fallback : ℤ) : int64Value object key fallback = n := by
  rw [int64Value, h]
  show truncate _ = n
  rw [truncate_intCast, Doubles.round_of_lt hsmall]

/-- A number that was written as a string. -/
theorem int64Value_string (h : value object key = .string (number n)) (hlow : -9223372036854775808 ≤ n)
    (hhigh : n ≤ 9223372036854775807) (fallback : ℤ) : int64Value object key fallback = n := by
  rw [int64Value, h]
  show (toLongLong (number n)).getD fallback = n
  rw [toLongLong_number hlow hhigh]
  rfl

end

end Qt

end ChatService
