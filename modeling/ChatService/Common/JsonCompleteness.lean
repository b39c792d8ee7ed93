import ChatService.Common.JsonSoundness

/-!
# Completeness of the reader

The other direction: every derivable text is accepted.  A scanner is shown to go over exactly the
bytes of a derivation that starts at its position, by induction on the derivation.  Only numbers look
at what comes behind them (a number is read greedily), which is what `EndsNumber` is for: behind a
value there is white space, a comma or a closing bracket, and none of them continues a number.

The fuel is paid for by the bytes gone over, three for each of them.
-/

namespace ChatService

open Byte JsonGrammar

variable {text : Bytes} {pos pos' fuel : ℕ}

/-! ### What may stand behind a value -/

/-- A byte that continues no number. -/
def endsNumber (ch : UInt8) : Bool := !isdigit ch && ch != dot && ch != 0x65 && ch != 0x45

/-- The text ends at `pos`, or goes on with a byte that continues no number. -/
def EndsNumber (text : Bytes) (pos : ℕ) : Prop := ∀ ch, text[pos]? = some ch → endsNumber ch = true

theorem endsNumber_of_isspace {ch : UInt8} (h : isspace ch = true) : endsNumber ch = true :=
  forall_byte (fun ch => isspace ch = true → endsNumber ch = true) (by decide +kernel) ch h

/-- White space and then a delimiter: whichever byte comes first ends a number. -/
theorem endsNumber_of_consumes {w rest : Bytes} {ch : UInt8} (hw : Ws w)
    (hch : endsNumber ch = true) (h : Consumes text pos pos' (w ++ ch :: rest)) :
    EndsNumber text pos := by
  intro c hc
  cases w with
  | nil =>
    obtain rfl : ch = c := Option.some.inj (h.head.1.symm.trans hc)
    exact hch
  | cons s w =>
    obtain rfl : s = c := Option.some.inj ((Consumes.head h).1.symm.trans hc)
    exact endsNumber_of_isspace (hw s (by simp))

/-- White space is skipped exactly up to a byte that is none. -/
theorem skipWhitespace_complete {w rest : Bytes} {ch : UInt8} (hw : Ws w)
    (hch : isspace ch = false) (h : Consumes text pos pos' (w ++ ch :: rest)) :
    skipWhitespace text pos = pos + w.length ∧ text[pos + w.length]? = some ch ∧
      Consumes text (pos + w.length + 1) pos' rest := by
  obtain ⟨hwc, hrest⟩ := h.split
  obtain ⟨hget, hrest⟩ := hrest.head
  refine ⟨advanceWhile_of_consumes hwc hw fun c hc => ?_, hget, hrest⟩
  rw [hget] at hc
  obtain rfl := Option.some.inj hc
  exact hch

/-! ### Strings -/

theorem simpleEscape_of_escape {e ch : UInt8} (h : Escape e ch) : simpleEscape e = some ch := by
  cases h <;> decide

theorem parseUnicodeEscape_complete {h₁ h₂ h₃ h₄ : UInt8} {n₁ n₂ n₃ n₄ code : ℕ} {out : Bytes}
    (hc : Consumes text pos (pos + 4) [h₁, h₂, h₃, h₄]) (v₁ : hexValue h₁ = some n₁)
    (v₂ : hexValue h₂ = some n₂) (v₃ : hexValue h₃ = some n₃) (v₄ : hexValue h₄ = some n₄)
    (hcode : ((n₁ * 16 + n₂) * 16 + n₃) * 16 + n₄ = code) (hle : code ≤ 0x7f) :
    parseUnicodeEscape text pos out = .ok (out ++ [UInt8.ofNat code]) (pos + 4) := by
  obtain ⟨e₁, hc₁⟩ := hc.head
  obtain ⟨e₂, hc₂⟩ := hc₁.head
  obtain ⟨e₃, hc₃⟩ := hc₂.head
  obtain ⟨e₄, -⟩ := hc₃.head
  have hlen : pos + 4 ≤ text.length := hc.le_length (by simp)
  have hdigits : unicodeDigits text pos [0, 1, 2, 3] 0 = .ok code pos := by
    simp only [unicodeDigits, Nat.add_zero, readByte_of_eq _ e₁, readByte_of_eq _ e₂,
      readByte_of_eq _ e₃, readByte_of_eq _ e₄, v₁, v₂, v₃, v₄, Nat.zero_mul, Nat.zero_add, hcode]
  rw [parseUnicodeEscape, if_neg (by omega), hdigits, Scan.bind_ok, if_neg (by omega)]

theorem parseJsonStringLoop_complete {body d out : Bytes} (hbody : StringBody body d)
    (hc : Consumes text pos pos' (body ++ [quote])) (hfuel : body.length < fuel) :
    parseJsonStringLoop text fuel pos out = .ok (out ++ d) pos' := by
  induction hbody generalizing pos fuel out with
  | nil =>
    obtain ⟨fuel, rfl⟩ := Nat.exists_eq_add_one.mpr (Nat.lt_of_le_of_lt (Nat.zero_le _) hfuel)
    rw [parseJsonStringLoop, if_pos (Consumes.lt_length hc), readByte_of_eq _ (Consumes.head hc).1]
    simp [hc.pos_eq]
  | @plain ch v d hge hq hb hv ih =>
    obtain ⟨fuel, rfl⟩ := Nat.exists_eq_add_one.mpr (Nat.lt_of_le_of_lt (Nat.zero_le _) hfuel)
    have hlt : v.length < fuel := by simpa using hfuel
    rw [parseJsonStringLoop, if_pos (Consumes.lt_length hc), readByte_of_eq _ (Consumes.head hc).1]
    simp only [hq, hb, UInt8.not_lt.mpr hge, if_false]
    rw [ih (Consumes.head hc).2 hlt, List.append_assoc, List.singleton_append]
  | @escape e ch v d he hv ih =>
    obtain ⟨fuel, rfl⟩ := Nat.exists_eq_add_one.mpr (Nat.lt_of_le_of_lt (Nat.zero_le _) hfuel)
    have hlt : v.length < fuel := by simp only [List.length_cons] at hfuel; omega
    have hc₁ := (Consumes.head hc).2
    rw [parseJsonStringLoop, if_pos (Consumes.lt_length hc), readByte_of_eq _ (Consumes.head hc).1]
    dsimp only
    rw [if_neg (by decide), if_pos rfl, if_neg (Nat.not_le.mpr (Consumes.lt_length hc₁)),
      readByte_of_eq _ (Consumes.head hc₁).1, simpleEscape_of_escape he]
    dsimp only
    rw [ih (Consumes.head hc₁).2 hlt, List.append_assoc, List.singleton_append]
  | @unicode h₁ h₂ h₃ h₄ n₁ n₂ n₃ n₄ code v d v₁ v₂ v₃ v₄ hcode hle hv ih =>
    obtain ⟨fuel, rfl⟩ := Nat.exists_eq_add_one.mpr (Nat.lt_of_le_of_lt (Nat.zero_le _) hfuel)
    have hlt : v.length < fuel := by simp only [List.length_cons] at hfuel; omega
    have hc₁ := (Consumes.head hc).2
    have hc₂ := (Consumes.head hc₁).2
    obtain ⟨hesc, hrest⟩ : Consumes text (pos + 1 + 1) (pos + 1 + 1 + 4) [h₁, h₂, h₃, h₄] ∧
        Consumes text (pos + 1 + 1 + 4) pos' (v ++ [quote]) :=
      Consumes.split (v := [h₁, h₂, h₃, h₄]) (w := v ++ [quote]) hc₂
    rw [parseJsonStringLoop, if_pos (Consumes.lt_length hc), readByte_of_eq _ (Consumes.head hc).1]
    dsimp only
    rw [if_neg (by decide), if_pos rfl, if_neg (Nat.not_le.mpr (Consumes.lt_length hc₁)),
      readByte_of_eq _ (Consumes.head hc₁).1]
    rw [show simpleEscape 0x75 = none from rfl]
    dsimp only
    rw [if_pos rfl, parseUnicodeEscape_complete hesc v₁ v₂ v₃ v₄ hcode hle, Scan.bind_ok,
      ih hrest hlt, List.append_assoc, List.singleton_append]

theorem parseJsonString_complete {v d : Bytes} (hv : StringLit v d)
    (hc : Consumes text pos pos' v) : parseJsonString text pos = .ok d pos' := by
  obtain ⟨body, rfl, hbody⟩ := hv
  have hle := hc.le_length (by simp)
  have hpos := hc.pos_eq
  simp only [List.length_append, List.length_cons, List.length_nil] at hpos
  rw [parseJsonString, if_pos (Consumes.head hc).1,
    parseJsonStringLoop_complete hbody (Consumes.head hc).2 (by omega), List.nil_append]

/-! ### Numbers and literals -/

theorem skipSign_complete {signs : List UInt8} {sign rest : Bytes} {ch : UInt8}
    (hsign : sign = [] ∨ ∃ s ∈ signs, sign = [s]) (hch : ch ∉ signs)
    (hc : Consumes text pos pos' (sign ++ ch :: rest)) :
    skipSign signs text pos = pos + sign.length := by
  rcases hsign with rfl | ⟨s, hs, rfl⟩
  · rw [skipSign, (Consumes.head hc).1]
    simp [hch]
  · rw [skipSign, (Consumes.head hc).1]
    simp [hs]

/-- A digit run is read to its end when no digit follows, and the loop has moved. -/
theorem digits_complete {v : Bytes} (hv : Digits v) (hc : Consumes text pos pos' v)
    (hstop : ∀ ch, text[pos']? = some ch → isdigit ch = false) :
    advanceWhile isdigit text pos = pos' ∧ pos' ≠ pos := by
  refine ⟨advanceWhile_of_consumes hc hv.2 hstop, ?_⟩
  have := List.length_pos_iff.mpr hv.1
  have := hc.pos_eq
  omega

theorem isdigit_of_endsNumber {ch : UInt8} (h : endsNumber ch = true) :
    isdigit ch = false ∧ ch ≠ dot ∧ ch ≠ 0x65 ∧ ch ≠ 0x45 := by
  simpa [endsNumber, and_assoc] using h

theorem numberExponent_complete {v : Bytes} (hv : Exponent v) (hc : Consumes text pos pos' v)
    (hend : EndsNumber text pos') : numberExponent text pos = .ok () pos' := by
  rcases hv with rfl | ⟨e, sign, digits, rfl, he, hsign, hd⟩
  · obtain rfl : pos' = pos := by simpa using hc.pos_eq
    rw [numberExponent, if_neg]
    rintro (h | h)
    · exact (isdigit_of_endsNumber (hend _ h)).2.2.1 rfl
    · exact (isdigit_of_endsNumber (hend _ h)).2.2.2 rfl
  · obtain ⟨hget, hc⟩ := Consumes.head hc
    obtain ⟨hsc, hdc⟩ := Consumes.split hc
    obtain ⟨ch, ds, rfl⟩ := List.exists_cons_of_ne_nil hd.1
    have hnosign : ch ∉ [plus, minus] := by
      have := hd.2 ch (by simp)
      rintro h
      rcases List.mem_pair.mp h with rfl | rfl <;> exact absurd this (by decide)
    obtain ⟨hadv, hmoved⟩ := digits_complete hd hdc fun c hch => (isdigit_of_endsNumber (hend c hch)).1
    rw [numberExponent, if_pos (by rcases he with rfl | rfl <;> simp [hget]),
      skipSign_complete (by simpa using hsign) hnosign hc]
    dsimp only
    rw [hadv, if_neg hmoved]

/-- What an exponent, if there is one, starts with. -/
theorem exponent_stops {v : Bytes} (hv : Exponent v) (hc : Consumes text pos pos' v)
    (hend : EndsNumber text pos') {ch : UInt8} (h : text[pos]? = some ch) :
    isdigit ch = false ∧ ch ≠ dot := by
  rcases hv with rfl | ⟨e, sign, digits, rfl, he, -, -⟩
  · obtain rfl : pos' = pos := by simpa using hc.pos_eq
    exact ⟨(isdigit_of_endsNumber (hend ch h)).1, (isdigit_of_endsNumber (hend ch h)).2.1⟩
  · obtain rfl : e = ch := Option.some.inj ((Consumes.head hc).1.symm.trans h)
    rcases he with rfl | rfl <;> decide

theorem numberFraction_complete {v exponent : Bytes} {p : ℕ} (hv : Fraction v)
    (hexp : Exponent exponent) (hc : Consumes text pos p v) (hec : Consumes text p pos' exponent)
    (hend : EndsNumber text pos') : numberFraction text pos = .ok () p := by
  rcases hv with rfl | ⟨digits, rfl, hd⟩
  · obtain rfl : p = pos := by simpa using hc.pos_eq
    rw [numberFraction, if_neg fun h => (exponent_stops hexp hec hend h).2 rfl]
  · obtain ⟨hget, hdc⟩ := Consumes.head hc
    obtain ⟨hadv, hmoved⟩ :=
      digits_complete hd hdc fun ch hch => (exponent_stops hexp hec hend hch).1
    rw [numberFraction, if_pos hget]
    dsimp only
    rw [hadv, if_neg hmoved]

theorem fraction_stops {v exponent : Bytes} {p : ℕ} (hv : Fraction v)
    (hexp : Exponent exponent) (hc : Consumes text pos p v) (hec : Consumes text p pos' exponent)
    (hend : EndsNumber text pos') {ch : UInt8} (h : text[pos]? = some ch) : isdigit ch = false := by
  rcases hv with rfl | ⟨digits, rfl, -⟩
  · obtain rfl : p = pos := by simpa using hc.pos_eq
    exact (exponent_stops hexp hec hend h).1
  · obtain rfl : dot = ch := Option.some.inj ((Consumes.head hc).1.symm.trans h)
    decide

theorem parseJsonNumberAsString_complete {v : Bytes} (hv : Number v)
    (hc : Consumes text pos pos' v) (hend : EndsNumber text pos') :
    parseJsonNumberAsString text pos = .ok v pos' := by
  obtain ⟨sign, digits, fraction, exponent, rfl, hsign, hd, hf, he⟩ := hv
  have hc' : Consumes text pos pos' (sign ++ (digits ++ (fraction ++ exponent))) := by
    simpa using hc
  obtain ⟨-, hrest⟩ := hc'.split
  obtain ⟨hdc, hrest⟩ := hrest.split
  obtain ⟨hfc, hec⟩ := hrest.split
  obtain ⟨ch, ds, rfl⟩ := List.exists_cons_of_ne_nil hd.1
  have hnosign : ch ∉ [minus] := by
    have := hd.2 ch (by simp)
    rintro h
    obtain rfl := List.mem_singleton.mp h
    exact absurd this (by decide)
  obtain ⟨hadv, hmoved⟩ := digits_complete hd hdc fun c hch => fraction_stops hf he hfc hec hend hch
  rw [parseJsonNumberAsString, skipSign_complete (by simpa using hsign) hnosign hc', hadv,
    if_neg hmoved, numberFraction_complete hf he hfc hec hend, Scan.bind_ok,
    numberExponent_complete he hec hend, Scan.bind_ok, hc.substr_eq]

theorem consumeJsonLiteral_complete {literal : Bytes} (hne : literal ≠ [])
    (hc : Consumes text pos pos' literal) : consumeJsonLiteral text pos literal = .ok () pos' := by
  have := hc.le_length hne
  have hlen := hc.pos_eq
  have hsub : substr text pos literal.length = literal := by
    simpa [hlen] using hc.substr_eq
  rw [consumeJsonLiteral, if_neg (by omega), if_neg (not_not.mpr hsub), hlen]

/-! ### Nested values -/

/-- A value starts with a visible byte, so nothing is skipped in front of it. -/
theorem value_head {v : Bytes} (hv : Derives .value v) :
    ∃ ch rest, v = ch :: rest ∧ isspace ch = false ∧ ch ≠ rbracket ∧ ch ≠ rbrace := by
  cases hv with
  | string hs =>
    obtain ⟨rest, rfl⟩ := hs.head
    exact ⟨quote, rest, rfl, by decide⟩
  | ofBare hb =>
    obtain ⟨ch, rest, rfl, hch⟩ := hb.bare_head
    refine ⟨ch, rest, rfl, ?_⟩
    rcases hch with rfl | rfl | rfl | rfl | rfl | rfl | hd
    iterate 6 exact by decide
    exact forall_byte (fun ch => isdigit ch = true →
      isspace ch = false ∧ ch ≠ rbracket ∧ ch ≠ rbrace) (by decide +kernel) ch hd

/-- What the nested scanners do on a derivation of the symbol: they go over exactly its bytes. -/
def Completes (text : Bytes) : Symbol → Bytes → Prop
  | .bare, v | .value, v => ∀ {pos pos' fuel}, Consumes text pos pos' v → EndsNumber text pos' →
      3 * v.length + 1 ≤ fuel → consumeJsonValue text fuel pos = .ok () pos'
  | .elements, es => ∀ {pos pos' fuel}, Consumes text pos pos' (es ++ [rbracket]) →
      3 * es.length + 2 ≤ fuel → consumeArrayLoop text fuel pos = .ok () pos'
  | .members, ms => ∀ {pos pos' fuel}, Consumes text pos pos' (ms ++ [rbrace]) →
      3 * ms.length + 2 ≤ fuel → consumeObjectLoop text fuel pos = .ok () pos'

/-- The dispatch of `consumeJsonValue` on the first byte of a value. -/
theorem consumeJsonValue_dispatch {ch : UInt8} (h : text[pos]? = some ch) (hs : isspace ch = false) :
    consumeJsonValue text (fuel + 1) pos =
      if ch = quote then (parseJsonString text pos).bind fun _ pos => .ok () pos
      else if ch = lbrace then consumeJsonObject text fuel pos
      else if ch = lbracket then consumeJsonArray text fuel pos
      else if ch = 0x74 then consumeJsonLiteral text pos (ascii "true")
      else if ch = 0x66 then consumeJsonLiteral text pos (ascii "false")
      else if ch = 0x6e then consumeJsonLiteral text pos (ascii "null")
      else (parseJsonNumberAsString text pos).bind fun _ pos => .ok () pos := by
  have hpos : skipWhitespace text pos = pos := skipWhitespace_of_not_space (by simp [h, hs])
  have hlt : pos < text.length := (List.getElem?_eq_some_iff.mp h).1
  rw [consumeJsonValue, hpos]
  rw [if_neg (by omega), readByte_of_eq _ h]

theorem completes_number {v : Bytes} (hv : Number v) : Completes text .bare v := by
  intro pos pos' fuel hc hend hfuel
  obtain ⟨fuel, rfl⟩ := Nat.exists_eq_add_one.mpr (Nat.lt_of_lt_of_le (Nat.succ_pos _) hfuel)
  obtain ⟨ch, rest, rfl, hch⟩ := hv.head
  have hfirst : isspace ch = false ∧ ch ≠ quote ∧ ch ≠ lbrace ∧ ch ≠ lbracket ∧ ch ≠ 0x74 ∧
      ch ≠ 0x66 ∧ ch ≠ 0x6e := by
    rcases hch with rfl | hd
    · decide
    · exact forall_byte (fun ch => isdigit ch = true → isspace ch = false ∧ ch ≠ quote ∧
        ch ≠ lbrace ∧ ch ≠ lbracket ∧ ch ≠ 0x74 ∧ ch ≠ 0x66 ∧ ch ≠ 0x6e) (by decide +kernel) ch hd
  obtain ⟨hs, h₁, h₂, h₃, h₄, h₅, h₆⟩ := hfirst
  rw [consumeJsonValue_dispatch (Consumes.head hc).1 hs, if_neg h₁, if_neg h₂, if_neg h₃, if_neg h₄,
    if_neg h₅, if_neg h₆, parseJsonNumberAsString_complete hv hc hend, Scan.bind_ok]

theorem completes_string {v d : Bytes} (hv : StringLit v d) : Completes text .value v := by
  intro pos pos' fuel hc hend hfuel
  obtain ⟨fuel, rfl⟩ := Nat.exists_eq_add_one.mpr (Nat.lt_of_lt_of_le (Nat.succ_pos _) hfuel)
  obtain ⟨rest, rfl⟩ := hv.head
  rw [consumeJsonValue_dispatch (Consumes.head hc).1 (by decide), if_pos rfl,
    parseJsonString_complete hv hc, Scan.bind_ok]

/-- The three literals: their first letter selects the branch, the comparison does the rest. -/
theorem completes_literal :
    Completes text .bare (ascii "true") ∧ Completes text .bare (ascii "false") ∧
      Completes text .bare (ascii "null") := by
  refine ⟨?_, ?_, ?_⟩ <;>
  · intro pos pos' fuel hc hend hfuel
    obtain ⟨fuel, rfl⟩ := Nat.exists_eq_add_one.mpr (Nat.lt_of_lt_of_le (Nat.succ_pos _) hfuel)
    rw [consumeJsonValue_dispatch (Consumes.head hc).1 (by decide)]
    exact consumeJsonLiteral_complete (by decide) hc

/-- An array whose first byte behind the white space is not its closing bracket. -/
theorem consumeJsonArray_eq_loop {w rest : Bytes} {ch : UInt8} (hw : Ws w)
    (hs : isspace ch = false) (hch : ch ≠ rbracket)
    (hc : Consumes text (pos + 1) pos' (w ++ ch :: rest)) :
    consumeJsonArray text (fuel + 1) pos = consumeArrayLoop text fuel (pos + 1 + w.length) := by
  obtain ⟨hskip, hget, -⟩ := skipWhitespace_complete hw hs hc
  rw [consumeJsonArray, hskip]
  rw [if_neg (by simpa [hget] using hch)]

theorem consumeJsonObject_eq_loop {w rest : Bytes} {ch : UInt8} (hw : Ws w)
    (hs : isspace ch = false) (hch : ch ≠ rbrace)
    (hc : Consumes text (pos + 1) pos' (w ++ ch :: rest)) :
    consumeJsonObject text (fuel + 1) pos = consumeObjectLoop text fuel (pos + 1 + w.length) := by
  obtain ⟨hskip, hget, -⟩ := skipWhitespace_complete hw hs hc
  rw [consumeJsonObject, hskip]
  rw [if_neg (by simpa [hget] using hch)]

theorem completes_emptyArray {w : Bytes} (hw : Ws w) :
    Completes text .bare (lbracket :: w ++ [rbracket]) := by
  intro pos pos' fuel hc hend hfuel
  obtain ⟨fuel, rfl⟩ := Nat.exists_eq_add_of_le (show 2 ≤ fuel by simp at hfuel; omega)
  obtain ⟨hget, hrest⟩ := Consumes.head hc
  obtain ⟨hskip, hclose, hlast⟩ := skipWhitespace_complete hw (by decide) hrest
  rw [Nat.add_comm 2, consumeJsonValue_dispatch hget (by decide), if_neg (by decide),
    if_neg (by decide), if_pos rfl, consumeJsonArray, hskip]
  rw [if_pos hclose, show pos' = _ from hlast.pos_eq]
  rfl

theorem completes_emptyObject {w : Bytes} (hw : Ws w) :
    Completes text .bare (lbrace :: w ++ [rbrace]) := by
  intro pos pos' fuel hc hend hfuel
  obtain ⟨fuel, rfl⟩ := Nat.exists_eq_add_of_le (show 2 ≤ fuel by simp at hfuel; omega)
  obtain ⟨hget, hrest⟩ := Consumes.head hc
  obtain ⟨hskip, hclose, hlast⟩ := skipWhitespace_complete hw (by decide) hrest
  rw [Nat.add_comm 2, consumeJsonValue_dispatch hget (by decide), if_neg (by decide),
    if_pos rfl, consumeJsonObject, hskip]
  rw [if_pos hclose, show pos' = _ from hlast.pos_eq]
  rfl

theorem elements_head {es : Bytes} (h : Derives .elements es) :
    ∃ ch rest, es = ch :: rest ∧ isspace ch = false ∧ ch ≠ rbracket := by
  cases h with
  | lastElement hv hw =>
    obtain ⟨ch, rest, rfl, hs, hne, -⟩ := value_head hv
    exact ⟨ch, _, rfl, hs, hne⟩
  | consElement hv hw hw' hes =>
    obtain ⟨ch, rest, rfl, hs, hne, -⟩ := value_head hv
    exact ⟨ch, _, rfl, hs, hne⟩

theorem members_head {ms : Bytes} (h : Derives .members ms) : ∃ rest, ms = quote :: rest := by
  cases h with
  | lastMember hk _ _ _ _ =>
    obtain ⟨rest, rfl⟩ := hk.head
    exact ⟨_, rfl⟩
  | consMember hk _ _ _ _ _ _ =>
    obtain ⟨rest, rfl⟩ := hk.head
    exact ⟨_, rfl⟩

theorem completes_array {w es : Bytes} (hw : Ws w) (hes : Derives .elements es)
    (ih : Completes text .elements es) : Completes text .bare (lbracket :: w ++ es ++ [rbracket]) := by
  intro pos pos' fuel hc hend hfuel
  obtain ⟨fuel, rfl⟩ := Nat.exists_eq_add_of_le (show 2 ≤ fuel by simp at hfuel; omega)
  obtain ⟨hget, hrest⟩ := Consumes.head hc
  obtain ⟨ch, rest, hcons, hs, hne⟩ := elements_head hes
  have helements : Consumes text (pos + 1) pos' (w ++ ch :: (rest ++ [rbracket])) := by
    simpa [hcons] using hrest
  rw [Nat.add_comm 2, consumeJsonValue_dispatch hget (by decide), if_neg (by decide),
    if_neg (by decide), if_pos rfl, consumeJsonArray_eq_loop hw hs hne helements]
  refine ih (Consumes.split (by simpa using hrest)).2 ?_
  simp only [List.length_append, List.length_cons, List.length_nil] at hfuel
  omega

theorem completes_object {w ms : Bytes} (hw : Ws w) (hms : Derives .members ms)
    (ih : Completes text .members ms) : Completes text .bare (lbrace :: w ++ ms ++ [rbrace]) := by
  intro pos pos' fuel hc hend hfuel
  obtain ⟨fuel, rfl⟩ := Nat.exists_eq_add_of_le (show 2 ≤ fuel by simp at hfuel; omega)
  obtain ⟨hget, hrest⟩ := Consumes.head hc
  obtain ⟨rest, hcons⟩ := members_head hms
  have hmembers : Consumes text (pos + 1) pos' (w ++ quote :: (rest ++ [rbrace])) := by
    simpa [hcons] using hrest
  rw [Nat.add_comm 2, consumeJsonValue_dispatch hget (by decide), if_neg (by decide),
    if_pos rfl, consumeJsonObject_eq_loop hw (by decide) (by decide) hmembers]
  refine ih (Consumes.split (by simpa using hrest)).2 ?_
  simp only [List.length_append, List.length_cons, List.length_nil] at hfuel
  omega

/-- One round of the array loop: a value, then white space and a delimiter. -/
theorem consumeArrayLoop_round {v w rest : Bytes} {ch : UInt8} (hv : Derives .value v) (hw : Ws w)
    (ih : Completes text .value v) (hdelim : isspace ch = false ∧ endsNumber ch = true)
    (hc : Consumes text pos pos' (v ++ w ++ ch :: rest)) (hfuel : 3 * v.length + 1 ≤ fuel) :
    ∃ p, consumeArrayLoop text (fuel + 1) pos =
        (if ch = rbracket then .ok () (p + 1)
          else if ch ≠ comma then .error (ascii "expected comma in array") p
          else consumeArrayLoop text fuel (skipWhitespace text (p + 1))) ∧
      Consumes text (p + 1) pos' rest := by
  have hc' : Consumes text pos pos' (v ++ (w ++ ch :: rest)) := by simpa using hc
  obtain ⟨hvc, hrest⟩ := hc'.split
  obtain ⟨hskip, hget, hlast⟩ := skipWhitespace_complete hw hdelim.1 hrest
  obtain ⟨c, cs, rfl, -⟩ := value_head hv
  have hlt := (List.getElem?_eq_some_iff.mp hget).1
  refine ⟨_, ?_, hlast⟩
  rw [consumeArrayLoop, if_pos hvc.lt_length,
    ih hvc (endsNumber_of_consumes hw hdelim.2 hrest) hfuel, Scan.bind_ok, hskip]
  dsimp only
  rw [if_neg (by omega), readByte_of_eq _ hget]

theorem completes_lastElement {v w : Bytes} (hv : Derives .value v) (hw : Ws w)
    (ih : Completes text .value v) : Completes text .elements (v ++ w) := by
  intro pos pos' fuel hc hfuel
  obtain ⟨fuel, rfl⟩ := Nat.exists_eq_add_one.mpr (Nat.lt_of_lt_of_le (Nat.succ_pos _) hfuel)
  have hbound : 3 * v.length + 1 ≤ fuel := by rw [List.length_append] at hfuel; omega
  obtain ⟨p, hround, hlast⟩ := consumeArrayLoop_round hv hw ih (by decide) hc hbound
  rw [hround, if_pos rfl, show pos' = p + 1 from hlast.pos_eq]

theorem completes_consElement {v w w' es : Bytes} (hv : Derives .value v) (hw : Ws w) (hw' : Ws w')
    (hes : Derives .elements es) (ih : Completes text .value v) (ihs : Completes text .elements es) :
    Completes text .elements (v ++ w ++ comma :: w' ++ es) := by
  intro pos pos' fuel hc hfuel
  obtain ⟨fuel, rfl⟩ := Nat.exists_eq_add_one.mpr (Nat.lt_of_lt_of_le (Nat.succ_pos _) hfuel)
  simp only [List.length_append, List.length_cons] at hfuel
  have hbound : 3 * v.length + 1 ≤ fuel := by omega
  have hc' : Consumes text pos pos' (v ++ w ++ comma :: (w' ++ (es ++ [rbracket]))) := by
    simpa using hc
  obtain ⟨p, hround, hrest⟩ := consumeArrayLoop_round hv hw ih (by decide) hc' hbound
  obtain ⟨ch, rest, hcons, hs, -⟩ := elements_head hes
  have hnext : Consumes text (p + 1) pos' (w' ++ ch :: (rest ++ [rbracket])) := by
    simpa [hcons] using hrest
  have hskip := (skipWhitespace_complete hw' hs hnext).1
  rw [hround, if_neg (by decide), if_neg (by simp), hskip]
  exact ihs hrest.split.2 (by omega)

/-- A member up to the value: key, colon and the white space around it. -/
theorem member_prefix {k key w₁ w₂ rest : Bytes} {ch : UInt8} (hk : StringLit k key) (hw₁ : Ws w₁)
    (hw₂ : Ws w₂) (hs : isspace ch = false)
    (hc : Consumes text pos pos' (k ++ w₁ ++ colon :: w₂ ++ ch :: rest)) :
    ∃ p p', pos < text.length ∧ parseJsonString text pos = .ok key p ∧
      text[skipWhitespace text p]? = some colon ∧
      skipWhitespace text (skipWhitespace text p + 1) = p' ∧ Consumes text p' pos' (ch :: rest) := by
  have hc' : Consumes text pos pos' (k ++ (w₁ ++ colon :: (w₂ ++ ch :: rest))) := by simpa using hc
  obtain ⟨hkc, hrest⟩ := hc'.split
  obtain ⟨hskip₁, hcolon, hrest⟩ := skipWhitespace_complete hw₁ (by decide) hrest
  obtain ⟨hskip₂, -, -⟩ := skipWhitespace_complete hw₂ hs hrest
  have hlt : pos < text.length := by
    obtain ⟨body, rfl⟩ := hk.head
    exact Consumes.lt_length hkc
  exact ⟨_, _, hlt, parseJsonString_complete hk hkc, by rw [hskip₁]; exact hcolon,
    by rw [hskip₁]; exact hskip₂, hrest.split.2⟩

/-- One round of the object loop: a member, then white space and a delimiter. -/
theorem consumeObjectLoop_round {k key w₁ w₂ v w₃ rest : Bytes} {ch : UInt8} (hk : StringLit k key)
    (hw₁ : Ws w₁) (hw₂ : Ws w₂) (hv : Derives .value v) (hw₃ : Ws w₃)
    (ih : Completes text .value v) (hdelim : isspace ch = false ∧ endsNumber ch = true)
    (hc : Consumes text pos pos' (k ++ w₁ ++ colon :: w₂ ++ v ++ w₃ ++ ch :: rest))
    (hfuel : 3 * v.length + 1 ≤ fuel) :
    ∃ p, consumeObjectLoop text (fuel + 1) pos =
        (if ch = rbrace then .ok () (p + 1)
          else if ch ≠ comma then .error (ascii "expected comma in object") p
          else consumeObjectLoop text fuel (skipWhitespace text (p + 1))) ∧
      Consumes text (p + 1) pos' rest := by
  obtain ⟨c, cs, hcons, hs, -⟩ := value_head hv
  have hc' : Consumes text pos pos' (k ++ w₁ ++ colon :: w₂ ++ c :: (cs ++ (w₃ ++ ch :: rest))) := by
    simpa [hcons] using hc
  obtain ⟨p, p', hpos, hkey, hcolon, hskip, hrest⟩ := member_prefix hk hw₁ hw₂ hs hc'
  have hrest' : Consumes text p' pos' (v ++ (w₃ ++ ch :: rest)) := by simpa [hcons] using hrest
  obtain ⟨hvc, hrest'⟩ := hrest'.split
  obtain ⟨hskip₃, hget, hlast⟩ := skipWhitespace_complete hw₃ hdelim.1 hrest'
  have hlt := (List.getElem?_eq_some_iff.mp hget).1
  refine ⟨_, ?_, hlast⟩
  rw [consumeObjectLoop, if_pos hpos, hkey, Scan.bind_ok]
  dsimp only
  rw [if_neg (not_not.mpr hcolon), hskip, ih hvc (endsNumber_of_consumes hw₃ hdelim.2 hrest') hfuel,
    Scan.bind_ok, hskip₃, if_neg (by omega), readByte_of_eq _ hget]

theorem completes_lastMember {k key w₁ w₂ v w₃ : Bytes} (hk : StringLit k key)
    (hw₁ : Ws w₁) (hw₂ : Ws w₂) (hv : Derives .value v) (hw₃ : Ws w₃)
    (ih : Completes text .value v) :
    Completes text .members (k ++ w₁ ++ colon :: w₂ ++ v ++ w₃) := by
  intro pos pos' fuel hc hfuel
  obtain ⟨fuel, rfl⟩ := Nat.exists_eq_add_one.mpr (Nat.lt_of_lt_of_le (Nat.succ_pos _) hfuel)
  simp only [List.length_append, List.length_cons] at hfuel
  have hbound : 3 * v.length + 1 ≤ fuel := by omega
  obtain ⟨p, hround, hlast⟩ := consumeObjectLoop_round hk hw₁ hw₂ hv hw₃ ih (by decide) hc hbound
  rw [hround, if_pos rfl, show pos' = p + 1 from hlast.pos_eq]

theorem completes_consMember {k key w₁ w₂ v w₃ w₄ ms : Bytes} (hk : StringLit k key)
    (hw₁ : Ws w₁) (hw₂ : Ws w₂) (hv : Derives .value v) (hw₃ : Ws w₃) (hw₄ : Ws w₄)
    (hms : Derives .members ms) (ih : Completes text .value v) (ihs : Completes text .members ms) :
    Completes text .members (k ++ w₁ ++ colon :: w₂ ++ v ++ w₃ ++ comma :: w₄ ++ ms) := by
  intro pos pos' fuel hc hfuel
  obtain ⟨fuel, rfl⟩ := Nat.exists_eq_add_one.mpr (Nat.lt_of_lt_of_le (Nat.succ_pos _) hfuel)
  simp only [List.length_append, List.length_cons] at hfuel
  have hbound : 3 * v.length + 1 ≤ fuel := by omega
  have hc' : Consumes text pos pos'
      (k ++ w₁ ++ colon :: w₂ ++ v ++ w₃ ++ comma :: (w₄ ++ (ms ++ [rbrace]))) := by
    simpa using hc
  obtain ⟨p, hround, hrest⟩ := consumeObjectLoop_round hk hw₁ hw₂ hv hw₃ ih (by decide) hc' hbound
  obtain ⟨rest, hcons⟩ := members_head hms
  have hnext : Consumes text (p + 1) pos' (w₄ ++ quote :: (rest ++ [rbrace])) := by
    simpa [hcons] using hrest
  have hskip := (skipWhitespace_complete hw₄ (by decide) hnext).1
  rw [hround, if_neg (by decide), if_neg (by simp), hskip]
  exact ihs hrest.split.2 (by omega)

/-- **The nested scanners are complete**: by induction on the derivation. -/
theorem JsonGrammar.Derives.completes {X : Symbol} {v : Bytes} (h : Derives X v) : Completes text X v := by
  induction h with
  | number hv => exact completes_number hv
  | literalTrue => exact completes_literal.1
  | literalFalse => exact completes_literal.2.1
  | literalNull => exact completes_literal.2.2
  | emptyArray hw => exact completes_emptyArray hw
  | array hw hes ih => exact completes_array hw hes ih
  | emptyObject hw => exact completes_emptyObject hw
  | object hw hms ih => exact completes_object hw hms ih
  | string hv => exact completes_string hv
  | ofBare hb ih => exact ih
  | lastElement hv hw ih => exact completes_lastElement hv hw ih
  | consElement hv hw hw' hes ih ihs => exact completes_consElement hv hw hw' hes ih ihs
  | lastMember hk hw₁ hw₂ hv hw₃ ih => exact completes_lastMember hk hw₁ hw₂ hv hw₃ ih
  | consMember hk hw₁ hw₂ hv hw₃ hw₄ hms ih ihs =>
    exact completes_consMember hk hw₁ hw₂ hv hw₃ hw₄ hms ih ihs

/-! ### The top-level object -/

theorem bound_head {v x : Bytes} (hv : Bound v x) :
    ∃ ch rest, v = ch :: rest ∧ isspace ch = false := by
  obtain ⟨ch, rest, hcons, hs, -⟩ := value_head hv.derives
  exact ⟨ch, rest, hcons, hs⟩

theorem parseJsonValueAsString_complete {v x : Bytes} (hv : Bound v x)
    (hc : Consumes text pos pos' v) (hend : EndsNumber text pos') :
    parseJsonValueAsString text pos = .ok x pos' := by
  cases hv with
  | string hs =>
    obtain ⟨rest, rfl⟩ := hs.head
    rw [parseJsonValueAsString, if_pos hc.head.1, parseJsonString_complete hs hc]
  | bare hb =>
    obtain ⟨ch, rest, hcons, hch⟩ := hb.bare_head
    have hget : text[pos]? = some ch := by
      rw [hcons] at hc
      exact hc.head.1
    have hnoquote : ch ≠ quote := by
      rcases hch with rfl | rfl | rfl | rfl | rfl | rfl | hd
      iterate 6 decide
      rintro rfl
      exact absurd hd (by decide)
    have hfuel : 3 * v.length + 1 ≤ consumeFuel text := by
      have := hc.le_length (by simp [hcons])
      have := hc.pos_eq
      rw [consumeFuel]
      omega
    rw [parseJsonValueAsString, if_neg (by simpa [hget] using hnoquote)]
    by_cases hnest : ch = lbrace ∨ ch = lbracket ∨ ch = 0x74 ∨ ch = 0x66 ∨ ch = 0x6e
    · rw [if_pos (by simpa [hget] using hnest), hb.completes hc hend hfuel, Scan.bind_ok,
        hc.substr_eq]
    · -- neither a bracket nor a literal's letter: the derivation is a number
      rw [if_neg (by simpa [hget] using hnest)]
      have hnumber : Number v := by
        have hfirst : v.head? = some ch := by rw [hcons]; rfl
        cases hb with
        | number hn => exact hn
        | _ =>
          obtain rfl := Option.some.inj hfirst
          exact absurd hnest (by decide)
      exact parseJsonNumberAsString_complete hnumber hc hend

theorem finishTopLevel_complete {w : Bytes} (hw : Ws w) (hc : Consumes text pos text.length w)
    (object : JsonObject) : finishTopLevel text pos object = .ok object text.length := by
  have hskip : skipWhitespace text pos = text.length :=
    advanceWhile_of_consumes hc hw fun ch hch => by simp at hch
  rw [finishTopLevel, hskip]
  simp

/-- One round of the top-level loop: a member, then white space and a delimiter. -/
theorem parseObjectLoop_round {k key w₁ w₂ v x w₃ rest : Bytes} {ch : UInt8} {object : JsonObject}
    (hk : StringLit k key) (hw₁ : Ws w₁) (hw₂ : Ws w₂) (hv : Bound v x) (hw₃ : Ws w₃)
    (hdelim : isspace ch = false ∧ endsNumber ch = true)
    (hc : Consumes text pos pos' (k ++ w₁ ++ colon :: w₂ ++ v ++ w₃ ++ ch :: rest)) :
    ∃ p, parseObjectLoop text (fuel + 1) pos object =
        (if ch = rbrace then finishTopLevel text (p + 1) (object.insert key x)
          else if ch ≠ comma then .error (ascii "expected comma") p
          else parseObjectLoop text fuel (skipWhitespace text (p + 1)) (object.insert key x)) ∧
      Consumes text (p + 1) pos' rest := by
  obtain ⟨c, cs, hcons, hs⟩ := bound_head hv
  have hc' : Consumes text pos pos' (k ++ w₁ ++ colon :: w₂ ++ c :: (cs ++ (w₃ ++ ch :: rest))) := by
    simpa [hcons] using hc
  obtain ⟨p, p', hpos, hkey, hcolon, hskip, hrest⟩ := member_prefix hk hw₁ hw₂ hs hc'
  have hrest' : Consumes text p' pos' (v ++ (w₃ ++ ch :: rest)) := by simpa [hcons] using hrest
  obtain ⟨hvc, hrest'⟩ := hrest'.split
  obtain ⟨hskip₃, hget, hlast⟩ := skipWhitespace_complete hw₃ hdelim.1 hrest'
  have hlt := (List.getElem?_eq_some_iff.mp hget).1
  refine ⟨_, ?_, hlast⟩
  rw [parseObjectLoop, if_pos hpos, hkey, Scan.bind_ok]
  dsimp only
  rw [if_neg (not_not.mpr hcolon), hskip,
    parseJsonValueAsString_complete hv hvc (endsNumber_of_consumes hw₃ hdelim.2 hrest'),
    Scan.bind_ok, hskip₃, if_neg (by omega), readByte_of_eq _ hget]

theorem bindings_head {ms : Bytes} {bs : List (Bytes × Bytes)} (h : Bindings ms bs) :
    ∃ rest, ms = quote :: rest := by
  cases h with
  | last hk _ _ _ _ =>
    obtain ⟨rest, rfl⟩ := hk.head
    exact ⟨_, rfl⟩
  | cons hk _ _ _ _ _ _ =>
    obtain ⟨rest, rfl⟩ := hk.head
    exact ⟨_, rfl⟩

theorem parseObjectLoop_complete {ms w : Bytes} {bs : List (Bytes × Bytes)} (hms : Bindings ms bs)
    (hw : Ws w) (object : JsonObject) (hc : Consumes text pos text.length (ms ++ rbrace :: w))
    (hfuel : ms.length ≤ fuel) :
    parseObjectLoop text fuel pos object = .ok (object.bindAll bs) text.length := by
  induction hms generalizing pos fuel object with
  | @last k key w₁ w₂ v x w₃ hk hw₁ hw₂ hv hw₃ =>
    obtain ⟨fuel, rfl⟩ := Nat.exists_eq_add_one.mpr (Nat.lt_of_lt_of_le
      (by simp only [List.length_append, List.length_cons]; omega) hfuel)
    obtain ⟨p, hround, hrest⟩ := parseObjectLoop_round hk hw₁ hw₂ hv hw₃ (by decide) hc
    rw [hround, if_pos rfl, finishTopLevel_complete hw hrest]
    rfl
  | @cons k key w₁ w₂ v x w₃ w₄ ms bs hk hw₁ hw₂ hv hw₃ hw₄ hms ih =>
    obtain ⟨fuel, rfl⟩ := Nat.exists_eq_add_one.mpr (Nat.lt_of_lt_of_le
      (by simp only [List.length_append, List.length_cons]; omega) hfuel)
    simp only [List.length_append, List.length_cons] at hfuel
    have hc' : Consumes text pos text.length
        (k ++ w₁ ++ colon :: w₂ ++ v ++ w₃ ++ comma :: (w₄ ++ (ms ++ rbrace :: w))) := by
      simpa using hc
    obtain ⟨p, hround, hrest⟩ := parseObjectLoop_round hk hw₁ hw₂ hv hw₃ (by decide) hc'
    obtain ⟨rest, hcons⟩ := bindings_head hms
    have hnext : Consumes text (p + 1) text.length (w₄ ++ quote :: (rest ++ rbrace :: w)) := by
      simpa [hcons] using hrest
    have hskip := (skipWhitespace_complete hw₄ (by decide) hnext).1
    rw [hround, if_neg (by decide), if_neg (by simp), hskip,
      ih (object.insert key x) hrest.split.2 (by omega)]
    rfl

/-- **Completeness.**  A derivable text is accepted, to its end, with its bindings bound one after
another. -/
theorem parseJsonObject_complete {bs : List (Bytes × Bytes)} (h : Text text bs) :
    parseJsonObject text = .ok (JsonObject.bindAll ∅ bs) text.length := by
  have whole : Consumes text 0 text.length text := ⟨by simp, by simp⟩
  cases h with
  | @empty w₁ w w₂ hw₁ hw hw₂ =>
    set text := w₁ ++ lbrace :: w ++ rbrace :: w₂ with htext
    have hc : Consumes text 0 text.length (w₁ ++ lbrace :: (w ++ rbrace :: w₂)) := by
      simpa [htext] using whole
    obtain ⟨hskip₁, hopen, hrest⟩ := skipWhitespace_complete hw₁ (by decide) hc
    obtain ⟨hskip, hclose, hlast⟩ := skipWhitespace_complete hw (by decide) hrest
    rw [parseJsonObject, hskip₁]
    dsimp only
    rw [if_neg (not_not.mpr hopen), hskip, if_pos hclose, finishTopLevel_complete hw₂ hlast]
    rfl
  | @members w₁ w ms bs w₂ hw₁ hw hms hw₂ =>
    set text := w₁ ++ lbrace :: w ++ ms ++ rbrace :: w₂ with htext
    have hc : Consumes text 0 text.length (w₁ ++ lbrace :: (w ++ (ms ++ rbrace :: w₂))) := by
      simpa [htext] using whole
    obtain ⟨hskip₁, hopen, hrest⟩ := skipWhitespace_complete hw₁ (by decide) hc
    obtain ⟨rest, hcons⟩ := bindings_head hms
    have hnext : Consumes text (0 + w₁.length + 1) text.length
        (w ++ quote :: (rest ++ rbrace :: w₂)) := by simpa [hcons] using hrest
    obtain ⟨hskip, hfirst, -⟩ := skipWhitespace_complete hw (by decide) hnext
    have hfuel : ms.length ≤ text.length := by
      simp only [htext, List.length_append, List.length_cons]
      omega
    rw [parseJsonObject, hskip₁]
    dsimp only
    rw [if_neg (not_not.mpr hopen), hskip,
      if_neg (fun h => absurd (hfirst.symm.trans h) (by decide)),
      parseObjectLoop_complete hms hw₂ ∅ hrest.split.2 hfuel]

end ChatService
