import ChatService.Common.JsonEscapes
import ChatService.Gateway.JsonText

/-!
# What the chat server reads of `JSON.stringify`

`stringify` and the writer of the server escape the same characters in the same way, and the numbers of
ECMA-262 are numbers of the server's grammar.  So the text of a value is derived there (`derives_stringify`),
unless one of its strings has a surrogate that stands alone: this is written as an escape above ASCII
(`asciiEscapes_stringify`).
-/

namespace ChatService

namespace Gateway

namespace JSON

open JsonGrammar

/-! ### Numbers -/

/-- Digits in UTF-8. -/
theorem digits_encode {text : List Char} (hne : text ≠ []) (h : ∀ c ∈ text, c.isDigit = true) :
    Digits (Utf8.encode text) := by
  have hbyte : ∀ c ∈ text, String.utf8EncodeChar c = [UInt8.ofNat c.toNat] ∧
      isdigit (UInt8.ofNat c.toNat) = true := by
    intro c hc
    have hdigit := h c hc
    refine ⟨?_, (isdigit_ofNat hdigit).1⟩
    rcases Utf8.utf8EncodeChar_cases c with ⟨-, hone⟩ | ⟨hbig, -⟩
    · exact hone
    · simp only [Char.isDigit, Bool.and_eq_true, decide_eq_true_eq, UInt32.le_iff_toNat_le] at hdigit
      have hsmall : c.toNat ≤ 57 := hdigit.2
      omega
  refine ⟨?_, ?_⟩
  · intro hnil
    obtain ⟨c, rest, rfl⟩ := List.exists_cons_of_ne_nil hne
    rw [Utf8.encode_cons, (hbyte c List.mem_cons_self).1] at hnil
    exact absurd hnil nofun
  · intro b hb
    obtain ⟨c, hc, hb⟩ := List.mem_flatMap.mp hb
    rw [(hbyte c hc).1] at hb
    rw [List.mem_singleton.mp hb]
    exact (hbyte c hc).2

theorem digits_toDigits (n : ℕ) : Digits (Utf8.encode (Nat.toDigits 10 n)) :=
  digits_encode Nat.toDigits_ne_nil fun c hc => Nat.isDigit_of_mem_toDigits (by omega) (by omega) hc

/-- A part of the digits. -/
theorem digits_take_drop {digits : List Char} (hdigits : ∀ c ∈ digits, c.isDigit = true) {k : ℕ} (hpos : 0 < k)
    (hlt : k < digits.length) : Digits (Utf8.encode (digits.take k)) ∧ Digits (Utf8.encode (digits.drop k)) := by
  have htake : digits.take k ≠ [] := by
    intro hnil
    have hlength := congrArg List.length hnil
    rw [List.length_take, List.length_nil] at hlength
    omega
  have hdrop : digits.drop k ≠ [] := by
    intro hnil
    have hlength := congrArg List.length hnil
    rw [List.length_drop, List.length_nil] at hlength
    omega
  exact ⟨digits_encode htake fun c hc => hdigits c (List.mem_of_mem_take hc),
    digits_encode hdrop fun c hc => hdigits c (List.mem_of_mem_drop hc)⟩

/-- The shapes of `decimalText`. -/
theorem shape_decimalText {digits : List Char} (hne : digits ≠ []) (hdigits : ∀ c ∈ digits, c.isDigit = true) (n : ℤ) :
    ∃ d f e, Utf8.encode (decimalText digits n) = d ++ f ++ e ∧ Digits d ∧ Fraction f ∧ Exponent e := by
  have hzeros : ∀ k, ∀ c ∈ List.replicate k '0', c.isDigit = true := by
    intro k c hc
    rw [List.eq_of_mem_replicate hc]
    rfl
  have hpos : 0 < digits.length := List.length_pos_iff.mpr hne
  rw [decimalText]
  dsimp only
  by_cases hwhole : (digits.length : ℤ) ≤ n ∧ n ≤ 21
  · rw [if_pos hwhole]
    refine ⟨Utf8.encode (digits ++ List.replicate (n - digits.length).toNat '0'), [], [], by simp, ?_, .inl rfl,
      .inl rfl⟩
    exact digits_encode (by simp [hne]) (List.forall_mem_append.mpr ⟨hdigits, hzeros _⟩)
  rw [if_neg hwhole]
  by_cases hpoint : 0 < n ∧ n ≤ 21
  · rw [if_pos hpoint]
    obtain ⟨htake, hdrop⟩ := digits_take_drop hdigits (k := n.toNat) (by omega) (by omega)
    refine ⟨Utf8.encode (digits.take n.toNat), Byte.dot :: Utf8.encode (digits.drop n.toNat), [], ?_, htake,
      .inr ⟨_, rfl, hdrop⟩, .inl rfl⟩
    rw [Utf8.encode_append, Utf8.encode_cons, List.append_nil]
    rfl
  rw [if_neg hpoint]
  by_cases hsmall : -6 < n ∧ n ≤ 0
  · rw [if_pos hsmall]
    refine ⟨Utf8.encode ['0'], Byte.dot :: Utf8.encode (List.replicate (-n).toNat '0' ++ digits), [], ?_,
      digits_encode nofun (List.forall_mem_singleton.mpr rfl),
      .inr ⟨_, rfl, digits_encode (by simp [hne]) (List.forall_mem_append.mpr ⟨hzeros _, hdigits⟩)⟩, .inl rfl⟩
    rw [List.append_nil]
    rfl
  rw [if_neg hsmall]
  have hexponent : ∀ sign : Char, sign = '-' ∨ sign = '+' →
      Exponent (Utf8.encode ('e' :: sign :: Nat.toDigits 10 (n - 1).natAbs)) := by
    intro sign hsign
    refine .inr ⟨0x65, Utf8.encode [sign], Utf8.encode (Nat.toDigits 10 (n - 1).natAbs), ?_, .inl rfl, ?_,
      digits_toDigits _⟩
    · simp only [Utf8.encode_cons, Utf8.encode_nil, List.append_nil]
      rfl
    · rcases hsign with rfl | rfl
      · exact .inr (.inr rfl)
      · exact .inr (.inl rfl)
  have hsigned : (if n < 0 then '-' else '+') = '-' ∨ (if n < 0 then '-' else '+') = '+' := by
    split_ifs
    · exact .inl rfl
    · exact .inr rfl
  by_cases hone : digits.length = 1
  · rw [if_pos hone]
    refine ⟨Utf8.encode digits, [], _, ?_, digits_encode hne hdigits, .inl rfl, hexponent _ hsigned⟩
    rw [Utf8.encode_append, List.append_nil]
  · rw [if_neg hone]
    obtain ⟨htake, hdrop⟩ := digits_take_drop hdigits Nat.one_pos (by omega)
    refine ⟨Utf8.encode (digits.take 1), Byte.dot :: Utf8.encode (digits.drop 1), _, ?_, htake,
      .inr ⟨_, rfl, hdrop⟩, hexponent _ hsigned⟩
    rw [Utf8.encode_append, Utf8.encode_append, Utf8.encode_cons]
    rfl

/-- **A number of ECMA-262** is a number of the server. -/
theorem number_numberText (x : ℚ) : Number (Utf8.encode (numberText x)) := by
  rw [numberText]
  by_cases hzero : x = 0
  · rw [if_pos hzero]
    have hdigit : Digits (Utf8.encode ['0']) := digits_encode nofun (List.forall_mem_singleton.mpr rfl)
    exact ⟨[], Utf8.encode ['0'], [], [], rfl, .inl rfl, hdigit, .inl rfl, .inl rfl⟩
  · rw [if_neg hzero]
    have hne : Nat.toDigits 10 (Binary64.shortest |x|).1 ≠ [] := Nat.toDigits_ne_nil
    obtain ⟨d, f, e, htext, hd, hf, he⟩ := shape_decimalText hne
      (fun c hc => Nat.isDigit_of_mem_toDigits (by omega) (by omega) hc) (Binary64.shortest |x|).2
    by_cases hneg : x < 0
    · simp only [if_pos hneg]
      refine ⟨[Byte.minus], d, f, e, ?_, .inr rfl, hd, hf, he⟩
      rw [Utf8.encode_cons, htext]
      rfl
    · simp only [if_neg hneg]
      exact ⟨[], d, f, e, htext, .inl rfl, hd, hf, he⟩

/-! ### Strings -/

/-- The UTF-8 of a string, if it has one. -/
def utf8 (units : List UInt16) : Option Bytes := (Utf16.decode units).map Utf8.encode

theorem encode_injective {text text' : List Char} (h : Utf8.encode text = Utf8.encode text') : text = text' := by
  have hwrite := congrArg (Utf8.write []) h
  rw [Utf8.write_encode, Utf8.write_encode] at hwrite
  exact congrArg Prod.fst hwrite

/-- Two strings with the same UTF-8 are equal, where they have one. -/
theorem utf8_inj {units units' : List UInt16} (hsome : (Utf16.decode units).isSome = true)
    (h : utf8 units = utf8 units') : units = units' := by
  obtain ⟨text, htext⟩ := Option.isSome_iff_exists.mp hsome
  rw [utf8, htext, Option.map_some] at h
  obtain ⟨text', htext', hencode⟩ := Option.map_eq_some_iff.mp h.symm
  rw [← Utf16.encode_of_decode htext, ← Utf16.encode_of_decode htext', encode_injective hencode]

/-- `QuoteJSONString` escapes a character as the writer of the server escapes its bytes. -/
theorem encode_quoteCodePoint (c : Char) :
    Utf8.encode (quoteCodePoint (.char c)) = (String.utf8EncodeChar c).flatMap escapeByte := by
  by_cases hascii : c.toNat < 0x80
  · have hall : ∀ n < 0x80, Utf8.encode (quoteCodePoint (.char (Char.ofNat n))) =
        (String.utf8EncodeChar (Char.ofNat n)).flatMap escapeByte := by decide +kernel
    have hc := hall c.toNat hascii
    rw [Char.ofNat_toNat] at hc
    exact hc
  · rcases Utf8.utf8EncodeChar_cases c with ⟨hsmall, -⟩ | ⟨-, hbeyond⟩
    · exact absurd hsmall hascii
    · have hplain : ∀ d : Char, d.toNat < 0x80 → c ≠ d := by
        rintro d hd rfl
        exact hascii hd
      have hself : quoteCodePoint (.char c) = [c] := by
        rw [quoteCodePoint, if_neg (hplain _ (by decide)), if_neg (hplain _ (by decide)), if_neg (hplain _ (by decide)),
          if_neg (hplain _ (by decide)), if_neg (hplain _ (by decide)), if_neg (hplain _ (by decide)),
          if_neg (hplain _ (by decide)), if_neg (by omega)]
      have hbytes : ∀ b : UInt8, 0x80 ≤ b → escapeByte b = [b] := fun b =>
        forall_byte (fun b => 0x80 ≤ b → escapeByte b = [b]) (by decide +kernel) b
      have hflat : ∀ bytes : Bytes, (∀ b ∈ bytes, 0x80 ≤ b) → bytes.flatMap escapeByte = bytes := by
        intro bytes h
        induction bytes with
        | nil => rfl
        | cons b bytes ih =>
          rw [List.flatMap_cons, hbytes b (h b List.mem_cons_self), ih fun b' hb' => h b' (List.mem_cons_of_mem _ hb')]
          rfl
      rw [hself, hflat _ hbeyond, Utf8.encode_cons, Utf8.encode_nil, List.append_nil]

/-- **A string without lone surrogates** is written as the server writes its UTF-8. -/
theorem encode_quote {units : List UInt16} {text : List Char} (h : Utf16.decode units = some text) :
    Utf8.encode (quote units) = Byte.quote :: escapeJsonString (Utf8.encode text) ++ [Byte.quote] := by
  have hpoints : Utf16.codePoints units = text.map .char := Utf16.eq_map_of_text h
  have hbody : ∀ text : List Char, Utf8.encode ((text.map Utf16.CodePoint.char).flatMap quoteCodePoint) =
      escapeJsonString (Utf8.encode text) := by
    intro text
    induction text with
    | nil => rfl
    | cons c text ih =>
      rw [List.map_cons, List.flatMap_cons, Utf8.encode_append, ih, encode_quoteCodePoint, Utf8.encode_cons,
        escapeJsonString, escapeJsonString, List.flatMap_append]
  rw [quote, hpoints, Utf8.encode_append, Utf8.encode_cons, hbody]
  rfl

theorem stringLit_quote {units : List UInt16} {text : List Char} (h : Utf16.decode units = some text) :
    StringLit (Utf8.encode (quote units)) (Utf8.encode text) := by
  rw [encode_quote h]
  exact stringLit_escapeJsonString _

theorem surrogate_of_mem {units : List UInt16} {unit : UInt16} (h : .surrogate unit ∈ Utf16.codePoints units) :
    0xd800 ≤ unit.toNat := by
  have hsingle : ∀ unit' : UInt16, Utf16.single unit' = .surrogate unit → 0xd800 ≤ unit.toNat := by
    intro unit' hunit
    rw [Utf16.single] at hunit
    split_ifs at hunit with hsurrogate
    obtain rfl := Utf16.CodePoint.surrogate.inj hunit
    simp only [Utf16.isLead, Utf16.isTrail, Bool.or_eq_true, Bool.and_eq_true, decide_eq_true_eq] at hsurrogate
    omega
  induction units using Utf16.codePoints.induct with
  | case1 => exact absurd h List.not_mem_nil
  | case2 unit' => exact hsingle unit' (List.mem_singleton.mp h).symm
  | case3 unit' unit'' rest hpair ih =>
    rw [Utf16.codePoints, if_pos hpair] at h
    rcases List.mem_cons.mp h with hhead | htail
    · exact absurd hhead (by simp)
    · exact ih htail
  | case4 unit' unit'' rest hpair ih =>
    rw [Utf16.codePoints, if_neg hpair] at h
    rcases List.mem_cons.mp h with hhead | htail
    · exact hsingle unit' hhead.symm
    · exact ih htail

/-- The escape of a surrogate is above ASCII. -/
theorem asciiEscapes_surrogate {unit : UInt16} (h : 0xd800 ≤ unit.toNat) (rest : Bytes) :
    asciiEscapes (Utf8.encode (unicodeEscape unit) ++ rest) = false := by
  have hsmall : unit.toNat < 0x10000 := unit.toNat_lt
  have hfirst : unit.toNat / 0x1000 = 13 ∨ unit.toNat / 0x1000 = 14 ∨ unit.toNat / 0x1000 = 15 := by omega
  have hcheck : ∀ d ∈ [13, 14, 15], ∀ rest : Bytes,
      asciiEscapes (Byte.backslash :: 0x75 :: (String.utf8EncodeChar (Nat.digitChar d) ++ rest)) = false := by
    intro d hd rest
    simp only [List.mem_cons, List.not_mem_nil, or_false] at hd
    rcases hd with rfl | rfl | rfl <;> rfl
  have hescape := hcheck (unit.toNat / 0x1000) (by simp only [List.mem_cons, List.not_mem_nil, or_false]; exact hfirst)
  rw [unicodeEscape, List.map_cons, Utf8.encode_cons, Utf8.encode_cons, Utf8.encode_cons, List.append_assoc,
    List.append_assoc, List.append_assoc]
  exact hescape _

theorem passes_quoteCodePoint (c : Char) : Passes (Utf8.encode (quoteCodePoint (.char c))) := by
  rw [encode_quoteCodePoint]
  exact (stringBody_escapeJsonString (String.utf8EncodeChar c)).passes

theorem asciiEscapes_points {points : List Utf16.CodePoint} (h : Utf16.text points = none)
    (hsurrogate : ∀ unit, .surrogate unit ∈ points → 0xd800 ≤ unit.toNat) (rest : Bytes) :
    asciiEscapes (Utf8.encode (points.flatMap quoteCodePoint) ++ rest) = false := by
  induction points with
  | nil => exact absurd h nofun
  | cons point points ih =>
    rw [List.flatMap_cons, Utf8.encode_append, List.append_assoc]
    cases point with
    | char c =>
      rw [passes_quoteCodePoint]
      exact ih (Option.map_eq_none_iff.mp h) fun unit hunit => hsurrogate unit (List.mem_cons_of_mem _ hunit)
    | surrogate unit => exact asciiEscapes_surrogate (hsurrogate unit List.mem_cons_self) _

/-- **A string passes the check** if and only if no surrogate stands alone. -/
theorem asciiEscapes_quote (units : List UInt16) : Separate (Utf8.encode (quote units)) ∧
    asciiEscapes (Utf8.encode (quote units)) = (Utf16.decode units).isSome := by
  cases hdecode : Utf16.decode units with
  | some text =>
    have hpasses : Passes (Utf8.encode (quote units)) := (stringLit_quote hdecode).passes
    exact ⟨hpasses.separate, hpasses.asciiEscapes⟩
  | none =>
    have hfails : ∀ rest, asciiEscapes (Utf8.encode (quote units) ++ rest) = false := by
      intro rest
      have hquote : Utf8.encode (quote units) =
          Byte.quote :: Utf8.encode ((Utf16.codePoints units).flatMap quoteCodePoint) ++ [Byte.quote] := by
        rw [quote, Utf8.encode_append, Utf8.encode_cons]
        rfl
      rw [hquote, List.append_assoc, List.cons_append, asciiEscapes_cons (by decide)]
      exact asciiEscapes_points hdecode (fun unit => surrogate_of_mem) _
    have hnil := hfails []
    rw [List.append_nil] at hnil
    exact ⟨fun rest => by rw [hfails, hnil]; rfl, hnil⟩

/-! ### Values -/

mutual

/-- No string has a surrogate that stands alone. -/
def Value.wellFormed : Value → Bool
  | .string units => (Utf16.decode units).isSome
  | .array elements => wellFormedElements elements
  | .object properties => wellFormedProperties properties
  | _ => true

def wellFormedElements : List Value → Bool
  | [] => true
  | element :: elements => element.wellFormed && wellFormedElements elements

def wellFormedProperties : List (List UInt16 × Value) → Bool
  | [] => true
  | (key, value) :: properties => ((Utf16.decode key).isSome && value.wellFormed) && wellFormedProperties properties

end

theorem wellFormedElements_eq (elements : List Value) :
    wellFormedElements elements = elements.all Value.wellFormed := by
  induction elements with
  | nil => rfl
  | cons element elements ih => rw [wellFormedElements, ih, List.all_cons]

theorem wellFormedProperties_eq (properties : List (List UInt16 × Value)) : wellFormedProperties properties =
    properties.all fun property => (Utf16.decode property.1).isSome && property.2.wellFormed := by
  induction properties with
  | nil => rfl
  | cons property properties ih => rw [wellFormedProperties, ih, List.all_cons]

theorem encode_enclose (left right : Char) (texts : List (List Char)) : Utf8.encode (enclose left right texts) =
    Utf8.encode [left] ++ List.intercalate [Byte.comma] (texts.map Utf8.encode) ++ Utf8.encode [right] := by
  have hcomma : Utf8.encode [','] = [Byte.comma] := by decide
  rw [← hcomma, ← Utf8.encode_intercalate, ← Utf8.encode_append, ← Utf8.encode_append]
  rfl

/-- Brackets pass, and so do the commas. -/
theorem asciiEscapes_enclose {left right : Char} (hleft : Passes (Utf8.encode [left]))
    (hright : Passes (Utf8.encode [right])) {texts : List (List Char)}
    (h : ∀ text ∈ texts, Separate (Utf8.encode text)) : Separate (Utf8.encode (enclose left right texts)) ∧
      asciiEscapes (Utf8.encode (enclose left right texts)) =
        texts.all fun text => asciiEscapes (Utf8.encode text) := by
  have hcomma : Passes [Byte.comma] := passes_singleton (by decide)
  have hparts : ∀ v ∈ texts.map Utf8.encode, Separate v := by
    intro v hv
    obtain ⟨text, htext, rfl⟩ := List.mem_map.mp hv
    exact h text htext
  obtain ⟨hseparate, hall⟩ := separate_intercalate hcomma hparts
  rw [encode_enclose]
  refine ⟨(hleft.separate.append hseparate).append hright.separate, ?_⟩
  rw [List.append_assoc, hleft, hseparate, hall, hright.asciiEscapes, Bool.and_true, List.all_map]
  rfl

/-- A member of an object. -/
def member (property : List UInt16 × Value) : List Char := quote property.1 ++ ':' :: stringify property.2

/-- The order of the keys does not look at the values. -/
theorem ordered_map {α β : Type} (f : α → β) (properties : List (List UInt16 × α)) :
    ordered (properties.map fun property => (property.1, f property.2)) =
      (ordered properties).map fun property => (property.1, f property.2) := by
  rw [ordered, ordered, List.map_append, List.filter_map, List.filter_map]
  congr 1
  symm
  apply List.map_insertionSort
  intro property _ property' _
  exact Iff.rfl

theorem stringify_object (properties : List (List UInt16 × Value)) :
    stringify (.object properties) = enclose '\x7b' '\x7d' ((ordered properties).map member) := by
  rw [stringify, stringifyProperties_eq, ordered_map, List.map_map]
  rfl

theorem encode_member (property : List UInt16 × Value) : Utf8.encode (member property) =
    Utf8.encode (quote property.1) ++ ([Byte.colon] ++ Utf8.encode (stringify property.2)) := by
  rw [member, Utf8.encode_append, Utf8.encode_cons]
  rfl

theorem asciiEscapes_member {property : List UInt16 × Value} (h : Separate (Utf8.encode (stringify property.2))) :
    Separate (Utf8.encode (member property)) ∧ asciiEscapes (Utf8.encode (member property)) =
      ((Utf16.decode property.1).isSome && asciiEscapes (Utf8.encode (stringify property.2))) := by
  obtain ⟨hkey, hcheck⟩ := asciiEscapes_quote property.1
  have hcolon : Passes [Byte.colon] := passes_singleton (by decide)
  rw [encode_member]
  refine ⟨hkey.append (hcolon.separate.append h), ?_⟩
  rw [hkey, hcheck, hcolon]

theorem all_of_mem {α : Type} {p q : α → Bool} {xs : List α} (h : ∀ x ∈ xs, p x = q x) : xs.all p = xs.all q := by
  have hmap : xs.map p = xs.map q := List.map_congr_left h
  have hall := congrArg (List.all · id) hmap
  rw [List.all_map, List.all_map] at hall
  exact hall

/-- **The check of a value** looks for surrogates that stand alone, in keys and in strings at any depth. -/
theorem asciiEscapes_stringify (value : Value) : Separate (Utf8.encode (stringify value)) ∧
    asciiEscapes (Utf8.encode (stringify value)) = value.wellFormed := by
  have hplain : ∀ {v : Bytes}, Passes v → Separate v ∧ asciiEscapes v = true := fun h => ⟨h.separate, h.asciiEscapes⟩
  have hbracket : ∀ bracket : Char, bracket = '[' ∨ bracket = ']' ∨ bracket = '\x7b' ∨ bracket = '\x7d' →
      Passes (Utf8.encode [bracket]) := by
    intro bracket hbracket
    rcases hbracket with rfl | rfl | rfl | rfl
    all_goals exact passes_singleton (by decide)
  induction value using Value.induct with
  | null => exact hplain (passes_of_plain (by decide +kernel))
  | boolean value =>
    cases value
    · exact hplain (passes_of_plain (by decide +kernel))
    · exact hplain (passes_of_plain (by decide +kernel))
  | number value =>
    cases value with
    | none => exact hplain (passes_of_plain (by decide +kernel))
    | some x => exact hplain (number_numberText x).passes
  | string units => exact asciiEscapes_quote units
  | array elements ih =>
    have htexts : ∀ text ∈ elements.map stringify, Separate (Utf8.encode text) := by
      intro text htext
      obtain ⟨element, helement, rfl⟩ := List.mem_map.mp htext
      exact (ih element helement).1
    obtain ⟨hseparate, hall⟩ := asciiEscapes_enclose (hbracket '[' (by decide)) (hbracket ']' (by decide)) htexts
    rw [stringify, stringifyElements_eq, Value.wellFormed, wellFormedElements_eq]
    refine ⟨hseparate, hall.trans ?_⟩
    rw [List.all_map]
    exact all_of_mem fun element helement => (ih element helement).2
  | object properties ih =>
    have hperm : (ordered properties).Perm properties := ordered_perm properties
    have hmember : ∀ property ∈ ordered properties, Separate (Utf8.encode (stringify property.2)) :=
      fun property hproperty => (ih property (hperm.mem_iff.mp hproperty)).1
    have htexts : ∀ text ∈ (ordered properties).map member, Separate (Utf8.encode text) := by
      intro text htext
      obtain ⟨property, hproperty, rfl⟩ := List.mem_map.mp htext
      exact (asciiEscapes_member (hmember property hproperty)).1
    obtain ⟨hseparate, hall⟩ :=
      asciiEscapes_enclose (hbracket '\x7b' (by decide)) (hbracket '\x7d' (by decide)) htexts
    rw [stringify_object, Value.wellFormed, wellFormedProperties_eq]
    refine ⟨hseparate, hall.trans ?_⟩
    rw [List.all_map, ← hperm.all_eq]
    refine all_of_mem fun property hproperty => ?_
    show asciiEscapes (Utf8.encode (member property)) = _
    rw [(asciiEscapes_member (hmember property hproperty)).2, (ih property (hperm.mem_iff.mp hproperty)).2]

/-! ### What the server reads -/

theorem exists_bound {v : Bytes} (h : Derives .value v) : ∃ x, Bound v x := by
  cases h with
  | string h => exact ⟨_, .string h⟩
  | ofBare h => exact ⟨_, .bare h⟩

/-- Fields for the server that are written as these properties. -/
structure Written (properties : List (List UInt16 × Value)) (fields : List Field) : Prop where
  lines : fields.map Field.line = properties.map fun property => Utf8.encode (member property)
  keys : fields.map (fun field => some field.key) = properties.map fun property => utf8 property.1
  strings : ∀ property ∈ properties, ∀ units, property.2 = .string units →
    ∃ field ∈ fields, utf8 property.1 = some field.key ∧ utf8 units = some field.value

/-- A member whose value is derived is a field; the value of a string is its UTF-8. -/
theorem exists_field {property : List UInt16 × Value} (hkey : (Utf16.decode property.1).isSome = true)
    (hvalue : Derives .value (Utf8.encode (stringify property.2))) (hwell : property.2.wellFormed = true) :
    ∃ field : Field, field.line = Utf8.encode (member property) ∧ utf8 property.1 = some field.key ∧
      ∀ units, property.2 = .string units → utf8 units = some field.value := by
  obtain ⟨name, hname⟩ := Option.isSome_iff_exists.mp hkey
  have hline : ∀ field : Field, field.key = Utf8.encode name → field.text = Utf8.encode (stringify property.2) →
      field.line = Utf8.encode (member property) := by
    intro field hfield htext
    rw [encode_member, encode_quote hname, Field.line, hfield, htext]
    rfl
  have hutf8 : utf8 property.1 = some (Utf8.encode name) := by rw [utf8, hname, Option.map_some]
  by_cases hstring : ∃ units, property.2 = .string units
  · obtain ⟨units, hunits⟩ := hstring
    rw [hunits] at hwell
    obtain ⟨text, htext⟩ := Option.isSome_iff_exists.mp hwell
    have hlit : StringLit (Utf8.encode (stringify property.2)) (Utf8.encode text) := by
      rw [hunits]
      exact stringLit_quote htext
    refine ⟨⟨Utf8.encode name, _, _, .string hlit⟩, hline _ rfl rfl, hutf8, ?_⟩
    intro units' hunits'
    obtain rfl := Value.string.inj (hunits.symm.trans hunits')
    rw [utf8, htext, Option.map_some]
  · obtain ⟨x, hx⟩ := exists_bound hvalue
    exact ⟨⟨Utf8.encode name, _, x, hx⟩, hline _ rfl rfl, hutf8, fun units hunits => absurd ⟨units, hunits⟩ hstring⟩

theorem exists_fields {properties : List (List UInt16 × Value)}
    (h : ∀ property ∈ properties, ∃ field : Field, field.line = Utf8.encode (member property) ∧
      utf8 property.1 = some field.key ∧ ∀ units, property.2 = .string units → utf8 units = some field.value) :
    ∃ fields, Written properties fields := by
  induction properties with
  | nil => exact ⟨[], rfl, rfl, fun _ hmem => absurd hmem List.not_mem_nil⟩
  | cons property properties ih =>
    obtain ⟨field, hline, hkey, hstring⟩ := h property List.mem_cons_self
    obtain ⟨fields, hfields⟩ := ih fun property' hproperty' => h property' (List.mem_cons_of_mem _ hproperty')
    refine ⟨field :: fields, ?_, ?_, ?_⟩
    · rw [List.map_cons, List.map_cons, hline, hfields.lines]
    · rw [List.map_cons, List.map_cons, hkey, hfields.keys]
    · intro property' hproperty' units hunits
      rcases List.mem_cons.mp hproperty' with rfl | hrest
      · exact ⟨field, List.mem_cons_self, hkey, hstring units hunits⟩
      · obtain ⟨field', hfield', hread⟩ := hfields.strings property' hrest units hunits
        exact ⟨field', List.mem_cons_of_mem _ hfield', hread⟩

theorem Written.objectText_eq {properties : List (List UInt16 × Value)} {fields : List Field}
    (h : Written (ordered properties) fields) : Utf8.encode (stringify (.object properties)) = objectText fields := by
  rw [stringify_object, encode_enclose, objectText, h.lines, List.map_map]
  rfl

/-- **A value without lone surrogates** is a value of the server's grammar. -/
theorem derives_stringify {value : Value} (h : value.wellFormed = true) :
    Derives .value (Utf8.encode (stringify value)) := by
  induction value using Value.induct with
  | null => exact .ofBare .literalNull
  | boolean value =>
    cases value
    · exact .ofBare .literalFalse
    · exact .ofBare .literalTrue
  | number value =>
    cases value with
    | none => exact .ofBare .literalNull
    | some x => exact .ofBare (.number (number_numberText x))
  | string units =>
    obtain ⟨text, htext⟩ := Option.isSome_iff_exists.mp h
    exact .string (stringLit_quote htext)
  | array elements ih =>
    rw [Value.wellFormed, wellFormedElements_eq, List.all_eq_true] at h
    have hvalues : ∀ v ∈ (elements.map stringify).map Utf8.encode, Derives .value v := by
      intro v hv
      rw [List.map_map] at hv
      obtain ⟨element, helement, rfl⟩ := List.mem_map.mp hv
      exact ih element helement (h element helement)
    have harray := (arrayText_intercalate Ws.nil Ws.nil Ws.nil hvalues).derives
    rw [List.append_nil] at harray
    rw [stringify, stringifyElements_eq, encode_enclose]
    exact .ofBare harray
  | object properties ih =>
    rw [Value.wellFormed, wellFormedProperties_eq, List.all_eq_true] at h
    obtain ⟨fields, hfields⟩ : ∃ fields, Written (ordered properties) fields := by
      refine exists_fields fun property hproperty => ?_
      have hmem : property ∈ properties := (ordered_perm properties).mem_iff.mp hproperty
      obtain ⟨hkey, hvalue⟩ := Bool.and_eq_true_iff.mp (h property hmem)
      exact exists_field hkey (ih property hmem hvalue) hvalue
    rw [hfields.objectText_eq]
    exact derives_objectText fields

/-- **An object without lone surrogates** is read by the server, every string as its UTF-8. -/
theorem parse_stringify {properties : List (List UInt16 × Value)} (hnodup : (properties.map Prod.fst).Nodup)
    (h : (Value.object properties).wellFormed = true) :
    ∃ object pos, parseJsonObject (Utf8.encode (stringify (.object properties))) = .ok object pos ∧
      ∀ key units, (key, Value.string units) ∈ properties → ∃ name text : Bytes,
        utf8 key = some name ∧ utf8 units = some text ∧ object[name]? = some text := by
  rw [Value.wellFormed, wellFormedProperties_eq, List.all_eq_true] at h
  have hperm : (ordered properties).Perm properties := ordered_perm properties
  obtain ⟨fields, hfields⟩ : ∃ fields, Written (ordered properties) fields := by
    refine exists_fields fun property hproperty => ?_
    obtain ⟨hkey, hvalue⟩ := Bool.and_eq_true_iff.mp (h property (hperm.mem_iff.mp hproperty))
    exact exists_field hkey (derives_stringify hvalue) hvalue
  have hkeys : (fields.map Field.key).Nodup := by
    have hsome : (fields.map fun field => some field.key) = (fields.map Field.key).map some := by
      rw [List.map_map]
      rfl
    have hordered : ((ordered properties).map Prod.fst).Nodup := ((hperm.map Prod.fst).nodup_iff).mpr hnodup
    have hutf8 : ((ordered properties).map Prod.fst).map utf8 = (fields.map Field.key).map some := by
      rw [← hsome, hfields.keys, List.map_map]
      rfl
    refine List.Nodup.of_map some ?_
    rw [← hutf8]
    refine hordered.map_on fun key hkey key' _ heq => ?_
    obtain ⟨property, hproperty, rfl⟩ := List.mem_map.mp hkey
    exact utf8_inj (Bool.and_eq_true_iff.mp (h property (hperm.mem_iff.mp hproperty))).1 heq
  refine ⟨_, _, hfields.objectText_eq ▸ parse_objectText fields, ?_⟩
  intro key units hmem
  obtain ⟨field, hfield, hname, htext⟩ := hfields.strings _ (hperm.mem_iff.mpr hmem) units rfl
  refine ⟨field.key, field.value, hname, htext, JsonObject.getElem?_bindAll_of_mem ?_ ?_⟩
  · rw [List.map_map]
    exact hkeys
  · exact List.mem_map.mpr ⟨field, hfield, rfl⟩

end JSON

end Gateway

end ChatService
