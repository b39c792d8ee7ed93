import ChatService.Gateway.JsonLines

/-!
# How long the text of a value is

`Value.size` counts what `JSON.stringify` writes without writing it: six bytes for an escape by its number, two
for a short one, and the text of a number, which may be longer than the one that was read (`length_stringify`).
No byte of the text is a newline (`stringify_visible`).
-/

namespace ChatService

namespace Gateway

namespace JSON

open JsonGrammar

/-! ### Sizes -/

/-- The bytes of a code point in a string. -/
def pointSize : Utf16.CodePoint → ℕ
  | .char c =>
    if c ∈ ['\x08', '\t', '\n', '\x0c', '\r', '"', '\\'] then 2 else if c.toNat < 0x20 then 6 else c.utf8Size
  | .surrogate _ => 6

/-- The bytes of a string with its quotes. -/
def stringSize (units : List UInt16) : ℕ := 2 + ((Utf16.codePoints units).map pointSize).sum

mutual

/-- The bytes of a value; a list of `n` members or elements has `n - 1` commas and its brackets. -/
def Value.size : Value → ℕ
  | .null => 4
  | .boolean value => if value then 4 else 5
  | .number none => 4
  | .number (some x) => byteLength (numberText x)
  | .string units => stringSize units
  | .array elements => 2 + sizeElements elements + (elements.length - 1)
  | .object properties => 2 + sizeProperties properties + (properties.length - 1)

def sizeElements : List Value → ℕ
  | [] => 0
  | element :: elements => element.size + sizeElements elements

def sizeProperties : List (List UInt16 × Value) → ℕ
  | [] => 0
  | (key, value) :: properties => (stringSize key + 1 + value.size) + sizeProperties properties

end

theorem sizeElements_eq (elements : List Value) : sizeElements elements = (elements.map Value.size).sum := by
  induction elements with
  | nil => rfl
  | cons element elements ih => rw [sizeElements, ih, List.map_cons, List.sum_cons]

theorem sizeProperties_eq (properties : List (List UInt16 × Value)) : sizeProperties properties =
    (properties.map fun property => stringSize property.1 + 1 + property.2.size).sum := by
  induction properties with
  | nil => rfl
  | cons property properties ih => rw [sizeProperties, ih, List.map_cons, List.sum_cons]

/-! ### Lengths -/

theorem length_unicodeEscape (unit : UInt16) : byteLength (unicodeEscape unit) = 6 := by
  have hdigit : ∀ n < 16, (String.utf8EncodeChar (Nat.digitChar n)).length = 1 := by decide
  have hsmall : unit.toNat < 0x10000 := unit.toNat_lt
  rw [byteLength, unicodeEscape]
  simp only [List.map_cons, List.map_nil, Utf8.encode_cons, Utf8.encode_nil, List.length_append, List.length_nil]
  rw [hdigit _ (by omega), hdigit _ (by omega), hdigit _ (by omega), hdigit _ (by omega)]
  rfl

theorem length_quoteCodePoint (point : Utf16.CodePoint) : byteLength (quoteCodePoint point) = pointSize point := by
  cases point with
  | surrogate unit => exact length_unicodeEscape unit
  | char c =>
    by_cases hshort : c ∈ ['\x08', '\t', '\n', '\x0c', '\r', '"', '\\']
    · have hall : ∀ c ∈ ['\x08', '\t', '\n', '\x0c', '\r', '"', '\\'],
          byteLength (quoteCodePoint (.char c)) = pointSize (.char c) := by
        simp only [List.mem_cons, List.not_mem_nil, or_false, forall_eq_or_imp, forall_eq]
        decide
      exact hall c hshort
    · have hone : ∀ d ∈ ['\x08', '\t', '\n', '\x0c', '\r', '"', '\\'], c ≠ d := by
        rintro d hd rfl
        exact hshort hd
      rw [quoteCodePoint, if_neg (hone _ (by decide)), if_neg (hone _ (by decide)), if_neg (hone _ (by decide)),
        if_neg (hone _ (by decide)), if_neg (hone _ (by decide)), if_neg (hone _ (by decide)),
        if_neg (hone _ (by decide)), pointSize, if_neg hshort]
      split_ifs
      · exact length_unicodeEscape _
      · rw [byteLength, Utf8.encode_cons, Utf8.encode_nil, List.append_nil, String.length_utf8EncodeChar]

theorem length_quote (units : List UInt16) : byteLength (quote units) = stringSize units := by
  have hbody : ∀ points : List Utf16.CodePoint,
      byteLength (points.flatMap quoteCodePoint) = (points.map pointSize).sum := by
    intro points
    induction points with
    | nil => rfl
    | cons point points ih =>
      rw [List.flatMap_cons, Bridge.byteLength_append, ih, length_quoteCodePoint, List.map_cons, List.sum_cons]
  have hquote : byteLength ['"'] = 1 := by decide
  have hsplit : quote units = ['"'] ++ (Utf16.codePoints units).flatMap quoteCodePoint ++ ['"'] := rfl
  rw [hsplit, Bridge.byteLength_append, Bridge.byteLength_append, hbody, hquote, stringSize]
  omega

theorem length_enclose {left right : Char} (hleft : byteLength [left] = 1) (hright : byteLength [right] = 1)
    (texts : List (List Char)) :
    byteLength (enclose left right texts) = 2 + (texts.map byteLength).sum + (texts.length - 1) := by
  have hcomma : [Byte.comma].length = 1 := rfl
  have hlengths : (texts.map Utf8.encode).map List.length = texts.map byteLength := by
    rw [List.map_map]
    rfl
  rw [byteLength] at hleft hright
  rw [byteLength, encode_enclose, List.length_append, List.length_append, Separators.length_intercalate, hleft, hright,
    hlengths, hcomma, List.length_map]
  omega

theorem length_member (property : List UInt16 × Value) :
    byteLength (member property) = stringSize property.1 + 1 + byteLength (stringify property.2) := by
  have hcolon : byteLength [':'] = 1 := by decide
  have hsplit : member property = quote property.1 ++ [':'] ++ stringify property.2 := by
    rw [List.append_assoc]
    rfl
  rw [hsplit, Bridge.byteLength_append, Bridge.byteLength_append, length_quote, hcolon]

/-- **The size of a value** is the length of its text in UTF-8. -/
theorem length_stringify (value : Value) : byteLength (stringify value) = value.size := by
  induction value using Value.induct with
  | null => decide
  | boolean value => cases value <;> decide
  | number value =>
    cases value with
    | none => decide
    | some x => rfl
  | string units => exact length_quote units
  | array elements ih =>
    rw [stringify, stringifyElements_eq, length_enclose (by decide) (by decide), List.map_map, List.length_map,
      Value.size, sizeElements_eq, List.map_congr_left (f := byteLength ∘ stringify) ih]
  | object properties ih =>
    have hperm : (ordered properties).Perm properties := ordered_perm properties
    have hmembers : ((ordered properties).map (byteLength ∘ member)).sum = sizeProperties properties := by
      rw [sizeProperties_eq, ← (hperm.map _).sum_eq]
      refine congrArg List.sum (List.map_congr_left fun property hproperty => ?_)
      show byteLength (member property) = _
      rw [length_member, ih property (hperm.mem_iff.mp hproperty)]
    rw [stringify_object, length_enclose (by decide) (by decide), List.map_map, List.length_map, hmembers,
      hperm.length_eq, Value.size]

/-! ### One line -/

theorem visible_of_number {v : Bytes} (h : Number v) : ∀ b ∈ v, 0x20 ≤ b := by
  have hdigits : ∀ {d : Bytes}, Digits d → ∀ b ∈ d, 0x20 ≤ b := fun hd b hb =>
    forall_byte (fun b => isdigit b = true → 0x20 ≤ b) (by decide +kernel) b (hd.2 b hb)
  have hsigns : ∀ b ∈ [Byte.minus, Byte.plus, Byte.dot, 0x65, 0x45], (0x20 : UInt8) ≤ b := by decide +kernel
  obtain ⟨sign, digits, fraction, exponent, rfl, hsign, hd, hfraction, hexponent⟩ := h
  rw [List.forall_mem_append, List.forall_mem_append, List.forall_mem_append]
  refine ⟨⟨⟨?_, hdigits hd⟩, ?_⟩, ?_⟩
  · rcases hsign with rfl | rfl
    · exact List.forall_mem_nil _
    · rw [List.forall_mem_singleton]
      exact hsigns _ (by simp)
  · rcases hfraction with rfl | ⟨d, rfl, hd'⟩
    · exact List.forall_mem_nil _
    · rw [List.forall_mem_cons]
      exact ⟨hsigns _ (by simp), hdigits hd'⟩
  · rcases hexponent with rfl | ⟨e, s, d, rfl, he, hs, hd'⟩
    · exact List.forall_mem_nil _
    · have he' : 0x20 ≤ e := by rcases he with rfl | rfl <;> exact hsigns _ (by simp)
      have hs' : ∀ b ∈ s, 0x20 ≤ b := by
        rcases hs with rfl | rfl | rfl
        · exact List.forall_mem_nil _
        · rw [List.forall_mem_singleton]
          exact hsigns _ (by simp)
        · rw [List.forall_mem_singleton]
          exact hsigns _ (by simp)
      rw [List.forall_mem_append, List.forall_mem_cons]
      exact ⟨⟨he', hs'⟩, hdigits hd'⟩

theorem unicodeEscape_visible (unit : UInt16) : ∀ b ∈ Utf8.encode (unicodeEscape unit), 0x20 ≤ b := by
  have hdigit : ∀ n < 16, ∀ b ∈ String.utf8EncodeChar (Nat.digitChar n), 0x20 ≤ b := by decide +kernel
  have hescape : ∀ b ∈ Utf8.encode ['\\', 'u'], 0x20 ≤ b := by decide +kernel
  have hsmall : unit.toNat < 0x10000 := unit.toNat_lt
  have hsplit : unicodeEscape unit = ['\\', 'u'] ++ [unit.toNat / 0x1000, unit.toNat / 0x100 % 16,
      unit.toNat / 0x10 % 16, unit.toNat % 16].map Nat.digitChar := rfl
  rw [hsplit, Utf8.encode_append, List.forall_mem_append]
  refine ⟨hescape, fun b hb => ?_⟩
  obtain ⟨c, hc, hb⟩ := List.mem_flatMap.mp hb
  obtain ⟨n, hn, rfl⟩ := List.mem_map.mp hc
  refine hdigit n ?_ b hb
  simp only [List.mem_cons, List.not_mem_nil, or_false] at hn
  omega

theorem quote_visible (units : List UInt16) : ∀ b ∈ Utf8.encode (quote units), 0x20 ≤ b := by
  have hquote : (0x20 : UInt8) ≤ Byte.quote := by decide +kernel
  have hpoint : ∀ point, ∀ b ∈ Utf8.encode (quoteCodePoint point), 0x20 ≤ b := by
    intro point
    cases point with
    | surrogate unit => exact unicodeEscape_visible unit
    | char c =>
      rw [encode_quoteCodePoint]
      exact escapeJsonString_visible _
  have hbody : ∀ points : List Utf16.CodePoint, ∀ b ∈ Utf8.encode (points.flatMap quoteCodePoint), 0x20 ≤ b := by
    intro points
    induction points with
    | nil => exact List.forall_mem_nil _
    | cons point points ih =>
      rw [List.flatMap_cons, Utf8.encode_append, List.forall_mem_append]
      exact ⟨hpoint point, ih⟩
  rw [quote, Utf8.encode_append, Utf8.encode_cons, List.forall_mem_append, List.forall_mem_append]
  refine ⟨⟨?_, hbody _⟩, ?_⟩
  · exact List.forall_mem_singleton.mpr hquote
  · exact List.forall_mem_singleton.mpr hquote

theorem enclose_visible {left right : Char} (hleft : ∀ b ∈ Utf8.encode [left], 0x20 ≤ b)
    (hright : ∀ b ∈ Utf8.encode [right], 0x20 ≤ b) {texts : List (List Char)}
    (h : ∀ text ∈ texts, ∀ b ∈ Utf8.encode text, 0x20 ≤ b) :
    ∀ b ∈ Utf8.encode (enclose left right texts), 0x20 ≤ b := by
  have hcomma : ∀ b ∈ [Byte.comma], (0x20 : UInt8) ≤ b := by decide +kernel
  rw [encode_enclose, List.forall_mem_append, List.forall_mem_append]
  refine ⟨⟨hleft, Separators.forall_mem_intercalate hcomma ?_⟩, hright⟩
  intro v hv
  obtain ⟨text, htext, rfl⟩ := List.mem_map.mp hv
  exact h text htext

/-- **The text of a value is one line**: all control characters are escaped. -/
theorem stringify_visible (value : Value) : ∀ b ∈ Utf8.encode (stringify value), 0x20 ≤ b := by
  induction value using Value.induct with
  | null => decide +kernel
  | boolean value => cases value <;> decide +kernel
  | number value =>
    cases value with
    | none => decide +kernel
    | some x => exact visible_of_number (number_numberText x)
  | string units => exact quote_visible units
  | array elements ih =>
    rw [stringify, stringifyElements_eq]
    refine enclose_visible (by decide +kernel) (by decide +kernel) fun text htext => ?_
    obtain ⟨element, helement, rfl⟩ := List.mem_map.mp htext
    exact ih element helement
  | object properties ih =>
    have hcolon : ∀ b ∈ [Byte.colon], (0x20 : UInt8) ≤ b := by decide +kernel
    rw [stringify_object]
    refine enclose_visible (by decide +kernel) (by decide +kernel) fun text htext => ?_
    obtain ⟨property, hproperty, rfl⟩ := List.mem_map.mp htext
    rw [encode_member, List.forall_mem_append, List.forall_mem_append]
    exact ⟨quote_visible _, hcolon, ih property ((ordered_perm properties).mem_iff.mp hproperty)⟩

end JSON

end Gateway

end ChatService
