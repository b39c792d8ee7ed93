import Mathlib.Data.UInt
import Mathlib.Tactic.Ring

/-!
# Numbers in network byte order

`encode n x` are the low `n` bytes of `x`, the highest first; `decode` is the number that bytes stand for.
-/

namespace BigEndian

def encode : ℕ → ℕ → List UInt8
  | 0, _ => []
  | n + 1, x => encode n (x / 256) ++ [UInt8.ofNat x]

def decode (bytes : List UInt8) : ℕ := bytes.foldl (fun x byte => x * 256 + byte.toNat) 0

@[simp] theorem length_encode (n x : ℕ) : (encode n x).length = n := by
  induction n generalizing x with
  | zero => rfl
  | succ n ih => simp [encode, ih]

@[simp] theorem decode_concat (bytes : List UInt8) (byte : UInt8) :
    decode (bytes ++ [byte]) = decode bytes * 256 + byte.toNat := by
  simp [decode]

theorem decode_lt (bytes : List UInt8) : decode bytes < 256 ^ bytes.length := by
  induction bytes using List.reverseRecOn with
  | nil => simp [decode]
  | append_singleton bytes byte ih =>
    have hbyte := byte.toNat_lt
    rw [decode_concat, List.length_append, List.length_singleton, pow_succ]
    omega

/-- **Reading inverts writing**, up to the bytes that are not written. -/
theorem decode_encode (n x : ℕ) : decode (encode n x) = x % 256 ^ n := by
  induction n generalizing x with
  | zero => simp [encode, decode, Nat.mod_one]
  | succ n ih =>
    have hsplit : x % 256 ^ (n + 1) = x / 256 % 256 ^ n * 256 + x % 256 := by
      rw [pow_succ', Nat.mod_mul]
      ring
    rw [encode, decode_concat, ih, hsplit, UInt8.toNat_ofNat']

/-- **Writing inverts reading.** -/
theorem encode_decode (bytes : List UInt8) : encode bytes.length (decode bytes) = bytes := by
  induction bytes using List.reverseRecOn with
  | nil => rfl
  | append_singleton bytes byte ih =>
    have hbyte := byte.toNat_lt
    have hdiv : (decode bytes * 256 + byte.toNat) / 256 = decode bytes := by omega
    have hlast : UInt8.ofNat (decode bytes * 256 + byte.toNat) = byte := by
      apply UInt8.toNat_inj.mp
      rw [UInt8.toNat_ofNat']
      omega
    rw [List.length_append, List.length_singleton, decode_concat, encode, hdiv, ih, hlast]

end BigEndian
