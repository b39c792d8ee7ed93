import ChatService.Common.JsonGrammar
import ChatService.Common.Protocol

/-!
# Numbers as text

An `int64_t` that is written by a stream and what is read back: the text is a number of the JSON grammar,
no two numbers have the same text, and `strtoll` gives the number back.
-/

namespace ChatService

open Byte JsonGrammar

/-- The decimal digits of a number. -/
def decimalDigits (n : ℕ) : Bytes := (Nat.toDigits 10 n).map fun c => UInt8.ofNat c.toNat

theorem isdigit_ofNat {c : Char} (h : c.isDigit = true) :
    isdigit (UInt8.ofNat c.toNat) = true ∧ (UInt8.ofNat c.toNat).toNat = c.toNat := by
  have hrange : 48 ≤ c.toNat ∧ c.toNat ≤ 57 := by
    simp only [Char.isDigit, Bool.and_eq_true, decide_eq_true_eq, ge_iff_le,
      UInt32.le_iff_toNat_le] at h
    exact h
  have hsmall : (UInt8.ofNat c.toNat).toNat = c.toNat :=
    UInt8.toNat_ofNat_of_lt' (show c.toNat < 256 by omega)
  refine ⟨?_, hsmall⟩
  simp only [isdigit, Bool.and_eq_true, decide_eq_true_eq, UInt8.le_iff_toNat_le, hsmall]
  exact hrange

theorem digits_decimalDigits (n : ℕ) : Digits (decimalDigits n) := by
  refine ⟨by simp [decimalDigits], fun ch hch => ?_⟩
  obtain ⟨c, hc, rfl⟩ := List.mem_map.mp hch
  exact (isdigit_ofNat (Nat.isDigit_of_mem_toDigits (by omega) (by omega) hc)).1

/-- Reading the digits gives the number back. -/
theorem decimal_decimalDigits (n : ℕ) : decimal (decimalDigits n) = n := by
  have hfold : ∀ (l : List Char) (init : ℕ), (∀ c ∈ l, c.isDigit = true) →
      (l.map fun c => UInt8.ofNat c.toNat).foldl (fun n ch => n * 10 + (ch.toNat - 0x30)) init =
        Nat.ofDigitChars 10 l init := by
    intro l
    induction l with
    | nil => intro init _; simp
    | cons c l ih =>
      intro init hl
      have hc := (isdigit_ofNat (hl c List.mem_cons_self)).2
      rw [List.map_cons, List.foldl_cons, ih _ fun d hd => hl d (List.mem_cons_of_mem _ hd),
        Nat.ofDigitChars_cons, hc, Nat.mul_comm]
      rfl
  rw [decimal, decimalDigits, hfold _ _ fun c hc => Nat.isDigit_of_mem_toDigits (by omega)
    (by omega) hc, Nat.ofDigitChars_ten_toDigits]

theorem decimalDigits_injective : Function.Injective decimalDigits := fun m n h => by
  rw [← decimal_decimalDigits m, h, decimal_decimalDigits]

/-- A sign for negative numbers, and the digits. -/
theorem int64ToString_eq (n : ℤ) :
    int64ToString n = if 0 ≤ n then decimalDigits n.toNat else minus :: decimalDigits (-n).toNat := by
  rw [int64ToString, Int.toString_eq_repr, Int.repr_eq_if]
  split_ifs
  · rw [ascii, Nat.toList_repr, decimalDigits]
  · rw [ascii, String.toList_append, List.map_append, Nat.toList_repr, decimalDigits]
    rfl

/-- Digits begin with a digit. -/
theorem Digits.head {v : Bytes} (h : Digits v) : ∃ ch rest, v = ch :: rest ∧ isdigit ch = true := by
  obtain ⟨ch, rest, rfl⟩ := List.exists_cons_of_ne_nil h.1
  exact ⟨ch, rest, rfl, h.2 ch List.mem_cons_self⟩

theorem int64ToString_injective : Function.Injective int64ToString := by
  -- a sign is no digit
  have hsign : ∀ m n : ℕ, decimalDigits m ≠ minus :: decimalDigits n := by
    intro m n h
    obtain ⟨ch, rest, heq, hch⟩ := Digits.head (digits_decimalDigits m)
    rw [heq] at h
    rw [(List.cons.inj h).1] at hch
    exact absurd hch (by decide)
  intro m n h
  rw [int64ToString_eq, int64ToString_eq] at h
  split_ifs at h with hm hn hn
  · have := decimalDigits_injective h
    omega
  · exact absurd h (hsign _ _)
  · exact absurd h.symm (hsign _ _)
  · have := decimalDigits_injective (List.cons.inj h).2
    omega

/-- A written number is a number of the grammar. -/
theorem number_int64ToString (n : ℤ) : Number (int64ToString n) := by
  rw [int64ToString_eq]
  split_ifs
  · exact ⟨[], decimalDigits n.toNat, [], [], by simp, .inl rfl, digits_decimalDigits _, .inl rfl,
      .inl rfl⟩
  · exact ⟨[minus], decimalDigits (-n).toNat, [], [], by simp, .inr rfl, digits_decimalDigits _,
      .inl rfl, .inl rfl⟩

/-! ### Reading with `strtoll` -/

/-- A digit ends no C string, and is neither white space nor a sign. -/
theorem digit_plain {ch : UInt8} (h : isdigit ch = true) :
    ch ≠ 0 ∧ isspace ch = false ∧ ch ≠ minus ∧ ch ≠ plus :=
  forall_byte (fun ch => isdigit ch = true →
    ch ≠ 0 ∧ isspace ch = false ∧ ch ≠ minus ∧ ch ≠ plus) (by decide +kernel) ch h

/-- No digit comes first. -/
def StopsDigits (r : Bytes) : Prop := ∀ ch, r.head? = some ch → isdigit ch = false

theorem stopsDigits_nil : StopsDigits [] := fun ch h => absurd h (by simp)

theorem stopsDigits_cons {ch : UInt8} {r : Bytes} (h : isdigit ch = false) : StopsDigits (ch :: r) := by
  intro c hc
  obtain rfl := Option.some.inj hc
  exact h

theorem takeWhile_digits_append {d r : Bytes} (hd : ∀ ch ∈ d, isdigit ch = true) (hr : StopsDigits r) :
    (d ++ r).takeWhile isdigit = d := by
  rw [List.takeWhile_append_of_pos hd]
  cases r with
  | nil => simp
  | cons ch r => rw [List.takeWhile_cons, hr ch rfl, if_neg (by simp), List.append_nil]

/-- Behind the digits a C string goes on with what stops the digits, or ends. -/
theorem stopsDigits_cString {r : Bytes} (h : StopsDigits r) : StopsDigits (cString r) := by
  cases r with
  | nil => exact stopsDigits_nil
  | cons ch r =>
    rw [cString, List.takeWhile_cons]
    split_ifs
    · exact stopsDigits_cons (h ch rfl)
    · exact stopsDigits_nil

theorem cString_digits_append {d r : Bytes} (hd : Digits d) : cString (d ++ r) = d ++ cString r :=
  List.takeWhile_append_of_pos fun ch hch => decide_eq_true (digit_plain (hd.2 ch hch)).1

/-- `strtoll` on digits in front of something else. -/
theorem strtoll_digits_append {d r : Bytes} (hd : Digits d) (hr : StopsDigits r) :
    strtoll (d ++ r) = some (saturate (decimal d)) := by
  obtain ⟨ch, rest, hcons, hch⟩ := Digits.head hd
  obtain ⟨-, hspace, hminus, hplus⟩ := digit_plain hch
  have hskip : (d ++ cString r).dropWhile isspace = d ++ cString r := by
    rw [hcons, List.cons_append, List.dropWhile_cons, hspace, if_neg (by simp)]
  have hnominus : (d ++ cString r).head? ≠ some minus := by simp [hcons, hminus]
  have hnoplus : (d ++ cString r).head? ≠ some plus := by simp [hcons, hplus]
  rw [strtoll]
  simp only [cString_digits_append hd, hskip]
  rw [if_neg (not_or.mpr ⟨hnominus, hnoplus⟩), takeWhile_digits_append hd.2 (stopsDigits_cString hr), if_neg hd.1,
    if_neg hnominus]

theorem strtoll_minus_append {d r : Bytes} (hd : Digits d) (hr : StopsDigits r) :
    strtoll (minus :: (d ++ r)) = some (saturate (-(decimal d : ℤ))) := by
  have hstring : cString (minus :: (d ++ r)) = minus :: (d ++ cString r) := by
    rw [cString, List.takeWhile_cons, if_pos (by decide)]
    exact congrArg (minus :: ·) (cString_digits_append hd)
  have hskip : (minus :: (d ++ cString r)).dropWhile isspace = minus :: (d ++ cString r) := by
    rw [List.dropWhile_cons, if_neg (by decide)]
  rw [strtoll]
  simp only [hstring, hskip, List.head?_cons, true_or, if_true, List.tail_cons,
    takeWhile_digits_append hd.2 (stopsDigits_cString hr), hd.1, if_false]

/-- **A number that fits is read back.** -/
theorem strtoll_int64ToString {n : ℤ} (hlow : -9223372036854775808 ≤ n)
    (hhigh : n ≤ 9223372036854775807) : strtoll (int64ToString n) = some n := by
  rw [int64ToString_eq]
  split_ifs with hn
  · have hread := strtoll_digits_append (digits_decimalDigits n.toNat) stopsDigits_nil
    rw [List.append_nil, decimal_decimalDigits, saturate] at hread
    rw [hread]
    congr 1
    omega
  · have hread := strtoll_minus_append (digits_decimalDigits (-n).toNat) stopsDigits_nil
    rw [List.append_nil, decimal_decimalDigits, saturate] at hread
    rw [hread]
    congr 1
    omega

end ChatService
