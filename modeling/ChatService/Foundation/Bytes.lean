import Mathlib.Data.List.TakeWhile
import Mathlib.Data.UInt

/-!
# Byte strings and the C-locale character classes

A `std::string` is a finite sequence of bytes with every byte value allowed, so the whole
development works over `List UInt8`.  The character tests are the `<cctype>` functions in the
`"C"` locale, applied (as the source always does) to an `unsigned char`.

* `ascii` — the bytes of an ASCII literal, so that field names and messages read as in the source;
* `isspace`, `isdigit`, `isalnum`, `hexValue` — the character classes;
* `hexDigit` with `hexValue_hexDigit` — the digit writer inverts the digit reader;
* `cString`, `strtoll` — what the C library sees of a `std::string`.
-/

namespace ChatService

/-- A `std::string`: a finite byte sequence. -/
abbrev Bytes := List UInt8

/-- Byte strings are compared byte by byte. -/
instance lawfulBEqBytes : LawfulBEq (List UInt8) := List.instLawfulBEq

/-- The bytes of an ASCII literal. -/
def ascii (s : String) : Bytes := s.toList.map fun c => UInt8.ofNat c.toNat

namespace Byte

abbrev tab : UInt8 := 0x09
abbrev newline : UInt8 := 0x0a
abbrev carriageReturn : UInt8 := 0x0d
abbrev space : UInt8 := 0x20
abbrev quote : UInt8 := 0x22
abbrev plus : UInt8 := 0x2b
abbrev comma : UInt8 := 0x2c
abbrev minus : UInt8 := 0x2d
abbrev dot : UInt8 := 0x2e
abbrev slash : UInt8 := 0x2f
abbrev zero : UInt8 := 0x30
abbrev colon : UInt8 := 0x3a
abbrev lbracket : UInt8 := 0x5b
abbrev backslash : UInt8 := 0x5c
abbrev rbracket : UInt8 := 0x5d
abbrev lbrace : UInt8 := 0x7b
abbrev rbrace : UInt8 := 0x7d

end Byte

/-! ### Character classes -/

/-- C-locale `isspace`: space, `\t`, `\n`, `\v`, `\f`, `\r`. -/
def isspace (ch : UInt8) : Bool := ch == 0x20 || (0x09 ≤ ch && ch ≤ 0x0d)

/-- C-locale `isdigit`. -/
def isdigit (ch : UInt8) : Bool := 0x30 ≤ ch && ch ≤ 0x39

/-- C-locale `isalnum`. -/
def isalnum (ch : UInt8) : Bool :=
  isdigit ch || (0x41 ≤ ch && ch ≤ 0x5a) || (0x61 ≤ ch && ch ≤ 0x7a)

/-- The value of a hexadecimal digit of either case. -/
def hexValue (ch : UInt8) : Option ℕ :=
  if 0x30 ≤ ch ∧ ch ≤ 0x39 then some (ch.toNat - 0x30)
  else if 0x61 ≤ ch ∧ ch ≤ 0x66 then some (ch.toNat - 0x61 + 10)
  else if 0x41 ≤ ch ∧ ch ≤ 0x46 then some (ch.toNat - 0x41 + 10)
  else none

/-- The `n`-th character of `"0123456789abcdef"`. -/
def hexDigit (n : ℕ) : UInt8 := if n < 10 then UInt8.ofNat (0x30 + n) else UInt8.ofNat (0x61 + (n - 10))

/-- Byte by byte: a property checked on the 256 values holds of every byte. -/
theorem forall_byte (P : UInt8 → Prop) (h : ∀ n : Fin 256, P (UInt8.ofNat n)) (ch : UInt8) : P ch := by
  rw [← UInt8.ofNat_toNat (x := ch)]
  exact h ⟨ch.toNat, ch.toNat_lt⟩

theorem hexValue_hexDigit : ∀ n < 16, hexValue (hexDigit n) = some n := by decide

/-! ### C strings and numbers -/

/-- What is left of a byte string when it is read as a C string. -/
def cString (value : Bytes) : Bytes := value.takeWhile (· ≠ 0)

/-- The value of a run of decimal digits. -/
def decimal (digits : Bytes) : ℕ := digits.foldl (fun n ch => n * 10 + (ch.toNat - 0x30)) 0

/-- A number cut to the range of an `int64_t`. -/
def saturate (n : ℤ) : ℤ := max (-9223372036854775808) (min n 9223372036854775807)

/-- `strtoll(value.c_str(), &end, 10)` (and `strtol`, where `long` has 64 bits): white space, a sign,
digits.  `none` is `end == value.c_str()`, no digits at all. -/
def strtoll (value : Bytes) : Option ℤ :=
  let text := (cString value).dropWhile isspace
  let negative := text.head? = some Byte.minus
  let digits := (if negative ∨ text.head? = some Byte.plus then text.tail else text).takeWhile isdigit
  if digits = [] then none
  else some (saturate (if negative then -(decimal digits : ℤ) else decimal digits))

example : strtoll (ascii " -12e3") = some (-12) := by decide

end ChatService
