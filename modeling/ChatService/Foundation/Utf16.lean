import Mathlib.Data.List.Basic
import Mathlib.Tactic.SplitIfs

/-!
# UTF-16, with surrogates that stand alone

A string of code units is read as code points: two surrogates that belong together are one character, every
other surrogate stands for itself.  A string without such surrogates is the encoding of one text
(`encode_of_decode`).
-/

namespace Utf16

/-! ### Writing -/

/-- A character in one code unit, or in a pair of surrogates. -/
def units (c : Char) : List UInt16 :=
  if c.toNat < 0x10000 then [UInt16.ofNat c.toNat]
  else [UInt16.ofNat (0xd800 + (c.toNat - 0x10000) / 0x400), UInt16.ofNat (0xdc00 + (c.toNat - 0x10000) % 0x400)]

def encode (text : List Char) : List UInt16 := text.flatMap units

/-! ### Reading -/

inductive CodePoint where
  | char (c : Char)
  /-- a surrogate without the other one -/
  | surrogate (unit : UInt16)
deriving DecidableEq, Repr

def isLead (unit : UInt16) : Bool := 0xd800 ≤ unit.toNat && unit.toNat ≤ 0xdbff

def isTrail (unit : UInt16) : Bool := 0xdc00 ≤ unit.toNat && unit.toNat ≤ 0xdfff

/-- A unit that is not part of a pair. -/
def single (unit : UInt16) : CodePoint :=
  if isLead unit || isTrail unit then .surrogate unit else .char (Char.ofNat unit.toNat)

def pair (lead trail : UInt16) : Char :=
  Char.ofNat (0x10000 + (lead.toNat - 0xd800) * 0x400 + (trail.toNat - 0xdc00))

def codePoints : List UInt16 → List CodePoint
  | [] => []
  | [unit] => [single unit]
  | unit :: unit' :: rest =>
    if isLead unit && isTrail unit' then .char (pair unit unit') :: codePoints rest
    else single unit :: codePoints (unit' :: rest)

/-- The text, if all code points are characters. -/
def text : List CodePoint → Option (List Char)
  | [] => some []
  | .char c :: rest => (text rest).map (c :: ·)
  | .surrogate _ :: _ => none

def decode (string : List UInt16) : Option (List Char) := text (codePoints string)

example : decode (encode "a¢€𐍈".toList) = some "a¢€𐍈".toList := by decide +kernel

/-! ### Nothing is lost -/

def CodePoint.units : CodePoint → List UInt16
  | char c => Utf16.units c
  | surrogate unit => [unit]

theorem toNat_ofNat {n : ℕ} (h : n.isValidChar) : (Char.ofNat n).toNat = n := by
  rw [Char.ofNat, dif_pos h]
  rfl

theorem units_single (unit : UInt16) : (single unit).units = [unit] := by
  rw [single]
  split_ifs with h
  · rfl
  · simp only [isLead, isTrail, Bool.or_eq_true, Bool.and_eq_true, decide_eq_true_eq] at h
    have hsmall : unit.toNat < 0x10000 := unit.toNat_lt
    have hvalid : unit.toNat.isValidChar := by
      rw [Nat.isValidChar]
      omega
    show Utf16.units (Char.ofNat unit.toNat) = [unit]
    rw [Utf16.units, toNat_ofNat hvalid, if_pos hsmall, UInt16.ofNat_toNat]

theorem units_pair {lead trail : UInt16} (hlead : isLead lead = true) (htrail : isTrail trail = true) :
    Utf16.units (pair lead trail) = [lead, trail] := by
  simp only [isLead, Bool.and_eq_true, decide_eq_true_eq] at hlead
  simp only [isTrail, Bool.and_eq_true, decide_eq_true_eq] at htrail
  have hvalid : (0x10000 + (lead.toNat - 0xd800) * 0x400 + (trail.toNat - 0xdc00)).isValidChar := by
    rw [Nat.isValidChar]
    omega
  have hhigh : 0xd800 + (0x10000 + (lead.toNat - 0xd800) * 0x400 + (trail.toNat - 0xdc00) - 0x10000) / 0x400 =
      lead.toNat := by omega
  have hlow : 0xdc00 + (0x10000 + (lead.toNat - 0xd800) * 0x400 + (trail.toNat - 0xdc00) - 0x10000) % 0x400 =
      trail.toNat := by omega
  rw [Utf16.units, pair, toNat_ofNat hvalid, if_neg (by omega), hhigh, hlow, UInt16.ofNat_toNat, UInt16.ofNat_toNat]

theorem units_codePoints (string : List UInt16) : (codePoints string).flatMap CodePoint.units = string := by
  induction string using codePoints.induct with
  | case1 => rfl
  | case2 unit => exact (List.append_nil _).trans (units_single unit)
  | case3 unit unit' rest hpair ih =>
    rw [codePoints, if_pos hpair, List.flatMap_cons, ih]
    have hboth := Bool.and_eq_true_iff.mp hpair
    show Utf16.units (pair unit unit') ++ rest = _
    rw [units_pair hboth.1 hboth.2]
    rfl
  | case4 unit unit' rest hpair ih =>
    rw [codePoints, if_neg hpair, List.flatMap_cons, ih, units_single]
    rfl

theorem eq_map_of_text {points : List CodePoint} {chars : List Char} (h : text points = some chars) :
    points = chars.map .char := by
  induction points generalizing chars with
  | nil =>
    obtain rfl := Option.some.inj h
    rfl
  | cons point points ih =>
    cases point with
    | char c =>
      obtain ⟨chars', hchars', rfl⟩ := Option.map_eq_some_iff.mp h
      rw [ih hchars']
      rfl
    | surrogate unit => exact absurd h nofun

/-- **A string that is a text is the encoding of it.** -/
theorem encode_of_decode {string : List UInt16} {chars : List Char} (h : decode string = some chars) :
    encode chars = string := by
  have hpoints : codePoints string = chars.map .char := eq_map_of_text h
  rw [← units_codePoints string, hpoints, List.flatMap_map]
  rfl

/-! ### A text is read back -/

/-- A character is no surrogate. -/
theorem toNat_cases (c : Char) : c.toNat < 0xd800 ∨ 0xdfff < c.toNat ∧ c.toNat < 0x110000 := c.valid

theorem single_units {c : Char} (h : c.toNat < 0x10000) :
    isLead (UInt16.ofNat c.toNat) = false ∧ single (UInt16.ofNat c.toNat) = .char c := by
  have hvalid := toNat_cases c
  have hunit : (UInt16.ofNat c.toNat).toNat = c.toNat := UInt16.toNat_ofNat_of_lt' h
  have hlead : isLead (UInt16.ofNat c.toNat) = false := by
    simp only [isLead, hunit, Bool.and_eq_false_iff, decide_eq_false_iff_not]
    omega
  have htrail : isTrail (UInt16.ofNat c.toNat) = false := by
    simp only [isTrail, hunit, Bool.and_eq_false_iff, decide_eq_false_iff_not]
    omega
  refine ⟨hlead, ?_⟩
  rw [single, hlead, htrail, hunit, Char.ofNat_toNat]
  rfl

theorem pair_units {c : Char} (h : 0x10000 ≤ c.toNat) :
    let lead := UInt16.ofNat (0xd800 + (c.toNat - 0x10000) / 0x400)
    let trail := UInt16.ofNat (0xdc00 + (c.toNat - 0x10000) % 0x400)
    isLead lead = true ∧ isTrail trail = true ∧ pair lead trail = c := by
  have hvalid := toNat_cases c
  have hlead : (UInt16.ofNat (0xd800 + (c.toNat - 0x10000) / 0x400)).toNat = 0xd800 + (c.toNat - 0x10000) / 0x400 :=
    UInt16.toNat_ofNat_of_lt' (by show _ < 65536; omega)
  have htrail : (UInt16.ofNat (0xdc00 + (c.toNat - 0x10000) % 0x400)).toNat = 0xdc00 + (c.toNat - 0x10000) % 0x400 :=
    UInt16.toNat_ofNat_of_lt' (by show _ < 65536; omega)
  refine ⟨?_, ?_, ?_⟩
  · simp only [isLead, hlead, Bool.and_eq_true, decide_eq_true_eq]
    omega
  · simp only [isTrail, htrail, Bool.and_eq_true, decide_eq_true_eq]
    omega
  · have hsum : 0x10000 + (0xd800 + (c.toNat - 0x10000) / 0x400 - 0xd800) * 0x400 +
        (0xdc00 + (c.toNat - 0x10000) % 0x400 - 0xdc00) = c.toNat := by omega
    rw [pair, hlead, htrail, hsum, Char.ofNat_toNat]

theorem codePoints_units (c : Char) (rest : List UInt16) :
    codePoints (units c ++ rest) = .char c :: codePoints rest := by
  rw [units]
  split_ifs with h
  · obtain ⟨hlead, hsingle⟩ := single_units h
    cases rest with
    | nil => simp only [List.append_nil, codePoints, hsingle]
    | cons unit rest =>
      rw [List.singleton_append, codePoints, if_neg (by simp [hlead]), hsingle]
  · obtain ⟨hlead, htrail, hpair⟩ := pair_units (Nat.not_lt.mp h)
    rw [List.cons_append, List.singleton_append, codePoints, if_pos (by rw [hlead, htrail]; rfl), hpair]

theorem codePoints_encode (text : List Char) : codePoints (encode text) = text.map .char := by
  induction text with
  | nil => rfl
  | cons c text ih => rw [encode, List.flatMap_cons, codePoints_units, ← encode, ih, List.map_cons]

/-- What was written is read. -/
theorem decode_encode (chars : List Char) : decode (encode chars) = some chars := by
  rw [decode, codePoints_encode]
  induction chars with
  | nil => rfl
  | cons c chars ih => rw [List.map_cons, text, ih, Option.map_some]

end Utf16
