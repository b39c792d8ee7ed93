import ChatService.Foundation.Bytes

/-!
# The grammar of a flat-object JSON text

What a text must look like to be an object, stated without any parser: RFC 8259 structure (objects
and arrays without missing or trailing commas, string keys) over byte strings, with

* white space any run of the C-locale `isspace` bytes;
* string bytes from `0x20` on other than the quote and the backslash, the one-letter escapes, and
  `\uXXXX` up to `0x7f`;
* numbers `-?digit+ (. digit+)? ([eE][+-]? digit+)?`, leading zeros allowed.

`Derives` gives the nested values, where only the extent matters.  `Bindings` and `Text` give the
top-level object together with the list of its bindings in textual order: a string is bound to what
it decodes to, every other value to its own source text.  `lastBinding` is the reading of such a
list as a map, the last binding of a repeated key winning.
-/

namespace ChatService.JsonGrammar

open Byte

/-- A run of white space. -/
def Ws (v : Bytes) : Prop := ∀ ch ∈ v, isspace ch = true

/-! ### Strings -/

/-- The one-letter escapes and what they stand for. -/
inductive Escape : UInt8 → UInt8 → Prop
  | quote : Escape quote quote
  | backslash : Escape backslash backslash
  | slash : Escape slash slash
  | b : Escape 0x62 0x08
  | f : Escape 0x66 0x0c
  | n : Escape 0x6e newline
  | r : Escape 0x72 carriageReturn
  | t : Escape 0x74 tab

/-- `StringBody v d`: between quotes, the bytes `v` stand for the string `d`. -/
inductive StringBody : Bytes → Bytes → Prop
  | nil : StringBody [] []
  | plain {ch v d} : 0x20 ≤ ch → ch ≠ quote → ch ≠ backslash → StringBody v d →
      StringBody (ch :: v) (ch :: d)
  | escape {e ch v d} : Escape e ch → StringBody v d →
      StringBody (backslash :: e :: v) (ch :: d)
  | unicode {h₁ h₂ h₃ h₄ n₁ n₂ n₃ n₄ code v d} :
      hexValue h₁ = some n₁ → hexValue h₂ = some n₂ →
      hexValue h₃ = some n₃ → hexValue h₄ = some n₄ →
      ((n₁ * 16 + n₂) * 16 + n₃) * 16 + n₄ = code → code ≤ 0x7f → StringBody v d →
      StringBody (backslash :: 0x75 :: h₁ :: h₂ :: h₃ :: h₄ :: v) (UInt8.ofNat code :: d)

/-- A string literal and the string it stands for. -/
def StringLit (v d : Bytes) : Prop := ∃ body, v = quote :: body ++ [quote] ∧ StringBody body d

/-! ### Numbers -/

def Digits (v : Bytes) : Prop := v ≠ [] ∧ ∀ ch ∈ v, isdigit ch = true

def Fraction (v : Bytes) : Prop := v = [] ∨ ∃ d, v = dot :: d ∧ Digits d

def Exponent (v : Bytes) : Prop :=
  v = [] ∨ ∃ e sign d, v = e :: sign ++ d ∧ (e = 0x65 ∨ e = 0x45) ∧
    (sign = [] ∨ sign = [plus] ∨ sign = [minus]) ∧ Digits d

def Number (v : Bytes) : Prop :=
  ∃ sign digits fraction exponent, v = sign ++ digits ++ fraction ++ exponent ∧
    (sign = [] ∨ sign = [minus]) ∧ Digits digits ∧ Fraction fraction ∧ Exponent exponent

/-! ### Values -/

inductive Symbol where
  /-- a number, literal, array or object -/
  | bare
  | value
  | elements
  | members

/-- `Derives X v`: the byte string `v` is an `X`.  Elements and members are non-empty and carry the
white space behind their last item. -/
inductive Derives : Symbol → Bytes → Prop
  | number {v} : Number v → Derives .bare v
  | literalTrue : Derives .bare (ascii "true")
  | literalFalse : Derives .bare (ascii "false")
  | literalNull : Derives .bare (ascii "null")
  | emptyArray {w} : Ws w → Derives .bare (lbracket :: w ++ [rbracket])
  | array {w es} : Ws w → Derives .elements es → Derives .bare (lbracket :: w ++ es ++ [rbracket])
  | emptyObject {w} : Ws w → Derives .bare (lbrace :: w ++ [rbrace])
  | object {w ms} : Ws w → Derives .members ms → Derives .bare (lbrace :: w ++ ms ++ [rbrace])
  | string {v d} : StringLit v d → Derives .value v
  | ofBare {v} : Derives .bare v → Derives .value v
  | lastElement {v w} : Derives .value v → Ws w → Derives .elements (v ++ w)
  | consElement {v w w' es} : Derives .value v → Ws w → Ws w' → Derives .elements es →
      Derives .elements (v ++ w ++ comma :: w' ++ es)
  | lastMember {k key w₁ w₂ v w₃} : StringLit k key → Ws w₁ → Ws w₂ → Derives .value v → Ws w₃ →
      Derives .members (k ++ w₁ ++ colon :: w₂ ++ v ++ w₃)
  | consMember {k key w₁ w₂ v w₃ w₄ ms} :
      StringLit k key → Ws w₁ → Ws w₂ → Derives .value v → Ws w₃ → Ws w₄ → Derives .members ms →
      Derives .members (k ++ w₁ ++ colon :: w₂ ++ v ++ w₃ ++ comma :: w₄ ++ ms)

/-! ### The top-level object and its bindings -/

/-- `Bound v x`: a value with source text `v` is bound as `x`. -/
inductive Bound : Bytes → Bytes → Prop
  | string {v d} : StringLit v d → Bound v d
  | bare {v} : Derives .bare v → Bound v v

/-- Top-level members with their bindings in textual order. -/
inductive Bindings : Bytes → List (Bytes × Bytes) → Prop
  | last {k key w₁ w₂ v x w₃} : StringLit k key → Ws w₁ → Ws w₂ → Bound v x → Ws w₃ →
      Bindings (k ++ w₁ ++ colon :: w₂ ++ v ++ w₃) [(key, x)]
  | cons {k key w₁ w₂ v x w₃ w₄ ms bs} :
      StringLit k key → Ws w₁ → Ws w₂ → Bound v x → Ws w₃ → Ws w₄ → Bindings ms bs →
      Bindings (k ++ w₁ ++ colon :: w₂ ++ v ++ w₃ ++ comma :: w₄ ++ ms) ((key, x) :: bs)

/-- A whole text, `ws object ws`, with the top-level bindings of the object. -/
inductive Text : Bytes → List (Bytes × Bytes) → Prop
  | empty {w₁ w w₂} : Ws w₁ → Ws w → Ws w₂ → Text (w₁ ++ lbrace :: w ++ rbrace :: w₂) []
  | members {w₁ w ms bs w₂} : Ws w₁ → Ws w → Bindings ms bs → Ws w₂ →
      Text (w₁ ++ lbrace :: w ++ ms ++ rbrace :: w₂) bs

/-- What a list of bindings says about a key: the last binding wins. -/
def lastBinding (bs : List (Bytes × Bytes)) (key : Bytes) : Option Bytes := bs.reverse.lookup key

/-! ### First bytes

Every value starts with a visible byte; the parser's dispatch looks at no more than this byte. -/

theorem Ws.nil : Ws [] := by simp [Ws]

theorem Ws.append {v w : Bytes} (hv : Ws v) (hw : Ws w) : Ws (v ++ w) := by
  intro ch hch
  rcases List.mem_append.mp hch with h | h
  · exact hv ch h
  · exact hw ch h

theorem StringLit.head {v d : Bytes} (h : StringLit v d) : ∃ rest, v = quote :: rest := by
  obtain ⟨body, rfl, -⟩ := h
  exact ⟨body ++ [quote], rfl⟩

/-- A number starts with a minus sign or a digit. -/
theorem Number.head {v : Bytes} (h : Number v) :
    ∃ ch rest, v = ch :: rest ∧ (ch = minus ∨ isdigit ch = true) := by
  obtain ⟨sign, digits, fraction, exponent, rfl, hsign, ⟨hne, hdigits⟩, -, -⟩ := h
  rcases hsign with rfl | rfl
  · obtain ⟨ch, rest, rfl⟩ := List.exists_cons_of_ne_nil hne
    exact ⟨ch, rest ++ fraction ++ exponent, by simp, .inr (hdigits ch (by simp))⟩
  · exact ⟨minus, digits ++ fraction ++ exponent, by simp, .inl rfl⟩

/-- A value that is no string starts with a brace, a bracket, a literal's letter, a sign or a
digit. -/
theorem Derives.bare_head {v : Bytes} (h : Derives .bare v) :
    ∃ ch rest, v = ch :: rest ∧ (ch = lbrace ∨ ch = lbracket ∨ ch = 0x74 ∨ ch = 0x66 ∨ ch = 0x6e ∨
      ch = minus ∨ isdigit ch = true) := by
  cases h with
  | number h =>
    obtain ⟨ch, rest, rfl, hch⟩ := h.head
    exact ⟨ch, rest, rfl, by tauto⟩
  | literalTrue => exact ⟨0x74, ascii "rue", by decide, by simp⟩
  | literalFalse => exact ⟨0x66, ascii "alse", by decide, by simp⟩
  | literalNull => exact ⟨0x6e, ascii "ull", by decide, by simp⟩
  | emptyArray hw => exact ⟨lbracket, _, rfl, by simp⟩
  | array hw hes => exact ⟨lbracket, _, rfl, by simp⟩
  | emptyObject hw => exact ⟨lbrace, _, rfl, by simp⟩
  | object hw hms => exact ⟨lbrace, _, rfl, by simp⟩

/-- The bindings are forgotten when the same members stand in a nested object. -/
theorem Bound.derives {v x : Bytes} (h : Bound v x) : Derives .value v := by
  cases h with
  | string h => exact .string h
  | bare h => exact .ofBare h

end ChatService.JsonGrammar
