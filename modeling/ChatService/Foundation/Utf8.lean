import ChatService.Foundation.Separators
import Mathlib.Data.List.Basic
import Mathlib.Tactic.SplitIfs

/-!
# UTF-8, written and read in pieces

`encode` writes a text as bytes.  The decoder reads bytes that arrive cut anywhere: it hands out the
characters that are complete and keeps the bytes of one that is not (`write`); what cannot be the beginning
of a character is replaced by `replacement`, and the byte that shows it is read anew.

* `write_append` — where the stream is cut does not matter.
* `write_encode` — the text comes out as it was written, and nothing is kept.
* `Valid` — the bytes of some text, and what keeps them so.
-/

namespace Utf8

open String (utf8EncodeChar)

/-! ### Writing -/

def encode (text : List Char) : List UInt8 := text.flatMap utf8EncodeChar

@[simp] theorem encode_nil : encode [] = [] := rfl

@[simp] theorem encode_cons (c : Char) (text : List Char) :
    encode (c :: text) = utf8EncodeChar c ++ encode text := rfl

@[simp] theorem encode_append (xs ys : List Char) : encode (xs ++ ys) = encode xs ++ encode ys :=
  List.flatMap_append

theorem encode_intercalate (sep : List Char) (texts : List (List Char)) :
    encode (List.intercalate sep texts) = List.intercalate (encode sep) (texts.map encode) :=
  Separators.flatMap_intercalate _ _ _

/-- A character is a byte of its own, or all its bytes are beyond ASCII. -/
theorem utf8EncodeChar_cases (c : Char) :
    (c.toNat < 0x80 ∧ utf8EncodeChar c = [UInt8.ofNat c.toNat]) ∨
      0x80 ≤ c.toNat ∧ ∀ b ∈ utf8EncodeChar c, 0x80 ≤ b := by
  have hnat : ∀ n : ℕ, 0x80 ≤ n → n < 0x100 → (0x80 : UInt8) ≤ UInt8.ofNat n := by
    intro n hlow hhigh
    rw [UInt8.le_iff_toNat_le, UInt8.toNat_ofNat_of_lt' hhigh]
    exact hlow
  by_cases hascii : c.toNat < 0x80
  · left
    refine ⟨hascii, ?_⟩
    rw [utf8EncodeChar]
    exact if_pos (Nat.le_of_lt_succ hascii)
  · right
    refine ⟨Nat.not_lt.mp hascii, ?_⟩
    have hnot : ¬ c.val.toNat ≤ 0x7f := fun h => hascii (Nat.lt_succ_of_le h)
    intro b hb
    rw [utf8EncodeChar, if_neg hnot] at hb
    split_ifs at hb
    all_goals
      simp only [List.mem_cons, List.not_mem_nil, or_false] at hb
      rcases hb with rfl | rfl | rfl | rfl <;> exact hnat _ (by omega) (by omega)

/-! ### Reading -/

/-- U+FFFD, for what is not UTF-8. -/
def replacement : Char := Char.ofNat 0xfffd

/-- Whether the second byte of a character may follow the first: neither overlong, nor a surrogate, nor beyond
U+10FFFF. -/
def follows (a b : UInt8) : Bool :=
  decide (0x80 ≤ b ∧ b ≤ 0xbf ∧ (a = 0xe0 → 0xa0 ≤ b) ∧ (a = 0xed → b ≤ 0x9f) ∧ (a = 0xf0 → 0x90 ≤ b) ∧
    (a = 0xf4 → b ≤ 0x8f))

/-- The bytes begin a character, and more of them are to come. -/
def incomplete : List UInt8 → Bool
  | [a] => decide (0xc2 ≤ a ∧ a ≤ 0xf4)
  | [a, b] => decide (0xe0 ≤ a ∧ a ≤ 0xf4) && follows a b
  | [a, b, c] => decide (0xf0 ≤ a ∧ a ≤ 0xf4) && follows a b && decide (0x80 ≤ c ∧ c ≤ 0xbf)
  | _ => false

/-- The character that the bytes begin with. -/
def decodeChar (bytes : List UInt8) : Option Char := bytes.toByteArray.utf8DecodeChar? 0

/-- A byte between two characters: what is handed out, and what is kept. -/
def start (b : UInt8) : List Char × List UInt8 :=
  if incomplete [b] then ([], [b])
  else
    match decodeChar [b] with
    | some c => ([c], [])
    | none => ([replacement], [])

/-- A byte behind those that were kept. -/
def push (kept : List UInt8) (b : UInt8) : List Char × List UInt8 :=
  if kept = [] then start b
  else if incomplete (kept ++ [b]) then ([], kept ++ [b])
  else
    match decodeChar (kept ++ [b]) with
    | some c => ([c], [])
    | none => (replacement :: (start b).1, (start b).2)

/-- A piece of the stream. -/
def write (kept : List UInt8) : List UInt8 → List Char × List UInt8
  | [] => ([], kept)
  | b :: bytes =>
    let first := push kept b
    let later := write first.2 bytes
    (first.1 ++ later.1, later.2)

/-- The cuts do not matter. -/
theorem write_append (kept xs ys : List UInt8) :
    write kept (xs ++ ys) =
      ((write kept xs).1 ++ (write (write kept xs).2 ys).1, (write (write kept xs).2 ys).2) := by
  induction xs generalizing kept with
  | nil => rfl
  | cons b xs ih => simp only [List.cons_append, write, ih, List.append_assoc]

theorem decodeChar_utf8EncodeChar (c : Char) : decodeChar (utf8EncodeChar c) = some c := by
  have h := ByteArray.utf8DecodeChar?_utf8EncodeChar_append (b := ByteArray.empty) (c := c)
  rwa [ByteArray.append_empty] at h

theorem toNat_ofNat {m : ℕ} (h : m < 256) : (UInt8.ofNat m).toNat = m := UInt8.toNat_ofNat_of_lt' h

/-- The bytes of a character are read as that character. -/
theorem write_utf8EncodeChar (c : Char) : write [] (utf8EncodeChar c) = ([c], []) := by
  have hdecode := decodeChar_utf8EncodeChar c
  have hvalid : c.val.toNat < 0xd800 ∨ 0xdfff < c.val.toNat ∧ c.val.toNat < 0x110000 := c.valid
  rw [utf8EncodeChar] at hdecode ⊢
  generalize c.val.toNat = n at hdecode hvalid ⊢
  split_ifs at hdecode ⊢ with h1 h2 h3
  · have hx := toNat_ofNat (show n < 256 by omega)
    generalize UInt8.ofNat n = x at hdecode hx ⊢
    have hfirst : incomplete [x] = false := by
      simp [incomplete, UInt8.le_iff_toNat_le, hx]
      omega
    simp [write, push, start, hfirst, hdecode]
  · have hx := toNat_ofNat (show n / 64 % 32 + 192 < 256 by omega)
    have hy := toNat_ofNat (show n % 64 + 128 < 256 by omega)
    generalize UInt8.ofNat (n / 64 % 32 + 192) = x at hdecode hx ⊢
    generalize UInt8.ofNat (n % 64 + 128) = y at hdecode hy ⊢
    have hfirst : incomplete [x] = true := by
      simp [incomplete, UInt8.le_iff_toNat_le, hx]
      omega
    have hsecond : incomplete [x, y] = false := by
      simp [incomplete, UInt8.le_iff_toNat_le, hx]
      omega
    simp [write, push, start, hfirst, hsecond, hdecode]
  · have hx := toNat_ofNat (show n / 4096 % 16 + 224 < 256 by omega)
    have hy := toNat_ofNat (show n / 64 % 64 + 128 < 256 by omega)
    have hz := toNat_ofNat (show n % 64 + 128 < 256 by omega)
    generalize UInt8.ofNat (n / 4096 % 16 + 224) = x at hdecode hx ⊢
    generalize UInt8.ofNat (n / 64 % 64 + 128) = y at hdecode hy ⊢
    generalize UInt8.ofNat (n % 64 + 128) = z at hdecode hz ⊢
    have hfirst : incomplete [x] = true := by
      simp [incomplete, UInt8.le_iff_toNat_le, hx]
      omega
    have hsecond : incomplete [x, y] = true := by
      simp [incomplete, follows, UInt8.le_iff_toNat_le, ← UInt8.toNat_inj, hx, hy]
      omega
    have hthird : incomplete [x, y, z] = false := by
      simp [incomplete, UInt8.le_iff_toNat_le, hx]
      omega
    simp [write, push, start, hfirst, hsecond, hthird, hdecode]
  · have hx := toNat_ofNat (show n / 262144 % 8 + 240 < 256 by omega)
    have hy := toNat_ofNat (show n / 4096 % 64 + 128 < 256 by omega)
    have hz := toNat_ofNat (show n / 64 % 64 + 128 < 256 by omega)
    generalize UInt8.ofNat (n / 262144 % 8 + 240) = x at hdecode hx ⊢
    generalize UInt8.ofNat (n / 4096 % 64 + 128) = y at hdecode hy ⊢
    generalize UInt8.ofNat (n / 64 % 64 + 128) = z at hdecode hz ⊢
    generalize UInt8.ofNat (n % 64 + 128) = w at hdecode ⊢
    have hfirst : incomplete [x] = true := by
      simp [incomplete, UInt8.le_iff_toNat_le, hx]
      omega
    have hsecond : incomplete [x, y] = true := by
      simp [incomplete, follows, UInt8.le_iff_toNat_le, ← UInt8.toNat_inj, hx, hy]
      omega
    have hthird : incomplete [x, y, z] = true := by
      simp [incomplete, follows, UInt8.le_iff_toNat_le, ← UInt8.toNat_inj, hx, hy, hz]
      omega
    have hfourth : incomplete [x, y, z, w] = false := rfl
    simp [write, push, start, hfirst, hsecond, hthird, hfourth, hdecode]

theorem write_encode (text : List Char) : write [] (encode text) = (text, []) := by
  induction text with
  | nil => rfl
  | cons c text ih =>
    rw [encode_cons, write_append, write_utf8EncodeChar, ih]
    rfl

/-! ### Which bytes are UTF-8 -/

/-- The bytes of a text. -/
def Valid (bytes : List UInt8) : Prop := ∃ text, encode text = bytes

theorem Valid.append {xs ys : List UInt8} (hx : Valid xs) (hy : Valid ys) : Valid (xs ++ ys) := by
  obtain ⟨text, rfl⟩ := hx
  obtain ⟨text', rfl⟩ := hy
  exact ⟨text ++ text', encode_append text text'⟩

theorem Valid.cons {b : UInt8} {bytes : List UInt8} (hb : b < 0x80) (h : Valid bytes) : Valid (b :: bytes) := by
  have hsingle : Valid [b] := by
    refine ⟨[Char.ofUInt8 b], ?_⟩
    have hnat : (Char.ofUInt8 b).val.toNat = b.toNat := UInt8.toNat_toUInt32 b
    rw [encode_cons, encode_nil, List.append_nil, utf8EncodeChar, hnat, if_pos, UInt8.ofNat_toNat]
    rw [UInt8.lt_iff_toNat_lt] at hb
    exact Nat.le_of_lt_succ hb
  exact hsingle.append h

/-- ASCII is UTF-8. -/
theorem valid_of_ascii {bytes : List UInt8} (h : ∀ b ∈ bytes, b < 0x80) : Valid bytes := by
  induction bytes with
  | nil => exact ⟨[], rfl⟩
  | cons b bytes ih =>
    obtain ⟨hb, hbytes⟩ := List.forall_mem_cons.mp h
    exact (ih hbytes).cons hb

/-- Rewriting ASCII by ASCII, and nothing else. -/
theorem Valid.flatMap {f : UInt8 → List UInt8} (hascii : ∀ b < 0x80, ∀ b' ∈ f b, b' < 0x80)
    (hbeyond : ∀ b, 0x80 ≤ b → f b = [b]) {bytes : List UInt8} (h : Valid bytes) : Valid (bytes.flatMap f) := by
  obtain ⟨text, rfl⟩ := h
  induction text with
  | nil => exact ⟨[], rfl⟩
  | cons c text ih =>
    rw [encode_cons, List.flatMap_append]
    refine Valid.append ?_ ih
    rcases utf8EncodeChar_cases c with ⟨hc, hbytes⟩ | ⟨-, hbytes⟩
    · rw [hbytes, List.flatMap_singleton]
      apply valid_of_ascii
      apply hascii
      rw [UInt8.lt_iff_toNat_lt, toNat_ofNat (by omega)]
      exact hc
    · have hsame : (utf8EncodeChar c).flatMap f = utf8EncodeChar c := by
        rw [List.flatMap_congr fun b hb => hbeyond b (hbytes b hb), List.flatMap_singleton']
      rw [hsame]
      exact ⟨[c], List.append_nil _⟩

/-- A prefix that ends in front of an ASCII byte. -/
theorem Valid.takeWhile {p : UInt8 → Bool} (hbeyond : ∀ b, 0x80 ≤ b → p b = true) {bytes : List UInt8}
    (h : Valid bytes) : Valid (bytes.takeWhile p) := by
  obtain ⟨text, rfl⟩ := h
  induction text with
  | nil => exact ⟨[], rfl⟩
  | cons c text ih =>
    have hwhole : Valid (utf8EncodeChar c) := ⟨[c], List.append_nil _⟩
    rw [encode_cons]
    by_cases hall : ∀ b ∈ utf8EncodeChar c, p b = true
    · rw [List.takeWhile_append_of_pos hall]
      exact hwhole.append ih
    · -- the prefix ends at this character, which is one byte
      rcases utf8EncodeChar_cases c with ⟨-, hbytes⟩ | ⟨-, hbytes⟩
      · rw [hbytes, List.forall_mem_singleton] at hall
        rw [hbytes, List.singleton_append, List.takeWhile_cons_of_neg hall]
        exact ⟨[], rfl⟩
      · exact absurd (fun b hb => hbeyond b (hbytes b hb)) hall

/-- An ASCII character is where its byte is. -/
theorem mem_encode_of_mem {c : Char} {text : List Char} (hc : c.toNat < 0x80) (h : c ∈ text) :
    UInt8.ofNat c.toNat ∈ encode text := by
  refine List.mem_flatMap.mpr ⟨c, h, ?_⟩
  rcases utf8EncodeChar_cases c with ⟨-, hbytes⟩ | ⟨hbeyond, -⟩
  · rw [hbytes]
    exact List.mem_singleton_self _
  · omega

/-- A text ends with the ASCII character that its bytes end with. -/
theorem exists_concat {b : UInt8} {bytes : List UInt8} {text : List Char} (hb : b < 0x80)
    (h : encode text = bytes ++ [b]) : ∃ front c, text = front ++ [c] ∧ c.toNat = b.toNat := by
  rcases List.eq_nil_or_concat' text with rfl | ⟨front, c, rfl⟩
  · exact absurd h (by simp)
  · refine ⟨front, c, rfl, ?_⟩
    have hlast : (utf8EncodeChar c).getLast? = some b := by
      have hne : utf8EncodeChar c ≠ [] := by
        intro hnil
        have hsize := String.length_utf8EncodeChar c
        rw [hnil] at hsize
        exact absurd hsize.symm (Nat.ne_of_gt (Char.utf8Size_pos c))
      have hends := congrArg List.getLast? h
      rw [encode_append, encode_cons, encode_nil, List.append_nil, List.getLast?_append_of_ne_nil _ hne,
        List.getLast?_concat] at hends
      exact hends
    rcases utf8EncodeChar_cases c with ⟨hc, hbytes⟩ | ⟨-, hbytes⟩
    · rw [hbytes] at hlast
      have heq : UInt8.ofNat c.toNat = b := Option.some.inj hlast
      rw [← heq, toNat_ofNat (by omega)]
    · have := hbytes b (List.mem_of_getLast? hlast)
      exact absurd hb (UInt8.not_lt.mpr this)

/-- ASCII is one byte a character. -/
theorem encode_of_ascii {text : List Char} (h : ∀ c ∈ text, c.toNat < 0x80) :
    encode text = text.map fun c => UInt8.ofNat c.toNat := by
  induction text with
  | nil => rfl
  | cons c text ih =>
    obtain ⟨hc, htext⟩ := List.forall_mem_cons.mp h
    rcases utf8EncodeChar_cases c with ⟨-, hbytes⟩ | ⟨hbeyond, -⟩
    · rw [encode_cons, hbytes, ih htext]
      rfl
    · omega

/-! ### The text of bytes -/

/-- The text of bytes that are UTF-8. -/
def text (bytes : List UInt8) : List Char := (write [] bytes).1

@[simp] theorem text_encode (chars : List Char) : text (encode chars) = chars := by
  rw [text, write_encode]

theorem encode_text {bytes : List UInt8} (h : Valid bytes) : encode (text bytes) = bytes := by
  obtain ⟨chars, rfl⟩ := h
  rw [text_encode]

/-- ASCII bytes separate characters. -/
theorem Valid.of_append {xs ys : List UInt8} {b : UInt8} (hb : b < 0x80) (h : Valid (xs ++ b :: ys)) :
    Valid xs ∧ Valid ys := by
  obtain ⟨chars, hchars⟩ := h
  induction chars generalizing xs with
  | nil => exact absurd hchars.symm (by simp)
  | cons c chars ih =>
    have hchar : Valid (utf8EncodeChar c) := ⟨[c], List.append_nil _⟩
    rw [encode_cons] at hchars
    rcases List.append_eq_append_iff.mp hchars with ⟨rest, rfl, hrest⟩ | ⟨rest, hhead, hrest⟩
    · obtain ⟨hxs, hys⟩ := ih hrest
      exact ⟨hchar.append hxs, hys⟩
    · cases rest with
      | nil =>
        obtain ⟨-, hys⟩ := @ih [] hrest.symm
        rw [List.append_nil] at hhead
        exact ⟨hhead ▸ hchar, hys⟩
      | cons b' rest =>
        -- the byte is a character by itself
        obtain ⟨rfl, rfl⟩ := List.cons.inj hrest
        rcases utf8EncodeChar_cases c with ⟨-, hone⟩ | ⟨-, hbeyond⟩
        · rw [hone] at hhead
          obtain ⟨rfl, hnil⟩ := List.append_eq_singleton_iff.mp hhead.symm |>.resolve_right (by simp)
          obtain rfl := (List.cons.inj hnil).2
          exact ⟨⟨[], rfl⟩, ⟨chars, rfl⟩⟩
        · exact absurd hb (UInt8.not_lt.mpr (hbeyond b (by simp [hhead])))

end Utf8
