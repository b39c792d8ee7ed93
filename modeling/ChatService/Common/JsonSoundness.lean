import ChatService.Common.Json
import ChatService.Common.JsonGrammar

/-!
# Soundness of the reader

Whatever the reader accepts is derivable, and the reader returns the map of the derivation's
bindings.  Each lemma has one shape: if the function succeeds from `pos` to `pos'`, the bytes it
went over (`Consumes`) belong to the grammar class the function is for.
-/

namespace ChatService

open Byte JsonGrammar

variable {text : Bytes} {pos pos' : ℕ}

/-! ### Leaves -/

theorem skipWhitespace_consumes (text : Bytes) (pos : ℕ) :
    ∃ w, Ws w ∧ Consumes text pos (skipWhitespace text pos) w :=
  advanceWhile_consumes isspace text pos

theorem escape_of_simpleEscape {e ch : UInt8} (h : simpleEscape e = some ch) : Escape e ch := by
  rw [simpleEscape] at h
  split at h
  · next he =>
    obtain rfl : e = ch := by simpa using h
    rcases he with rfl | rfl | rfl
    · exact .quote
    · exact .backslash
    · exact .slash
  · split_ifs at h with hb hf hn hr ht <;> (obtain rfl := Option.some.inj h; subst_vars; constructor)

/-- Reading four hexadecimal digits. -/
theorem unicodeDigits_sound {code : ℕ} (h : unicodeDigits text pos [0, 1, 2, 3] 0 = .ok code pos') :
    ∃ h₁ h₂ h₃ h₄ n₁ n₂ n₃ n₄, Consumes text pos (pos + 4) [h₁, h₂, h₃, h₄] ∧ pos' = pos ∧
      hexValue h₁ = some n₁ ∧ hexValue h₂ = some n₂ ∧ hexValue h₃ = some n₃ ∧
      hexValue h₄ = some n₄ ∧ ((n₁ * 16 + n₂) * 16 + n₃) * 16 + n₄ = code := by
  have hstep : ∀ {i rest c}, unicodeDigits text pos (i :: rest) c = .ok code pos' →
      ∃ ch n, text[pos + i]? = some ch ∧ hexValue ch = some n ∧
        unicodeDigits text pos rest (c * 16 + n) = .ok code pos' := by
    intro i rest c h
    rw [unicodeDigits, readByte_eq_ok] at h
    obtain ⟨ch, hch, h⟩ := h
    split at h
    · exact absurd h (by simp)
    · next n hn => exact ⟨ch, n, hch, hn, h⟩
  obtain ⟨h₁, n₁, e₁, v₁, h⟩ := hstep h
  obtain ⟨h₂, n₂, e₂, v₂, h⟩ := hstep h
  obtain ⟨h₃, n₃, e₃, v₃, h⟩ := hstep h
  obtain ⟨h₄, n₄, e₄, v₄, h⟩ := hstep h
  obtain ⟨rfl, rfl⟩ : code = _ ∧ pos' = pos := by simpa [unicodeDigits, eq_comm] using h
  refine ⟨h₁, h₂, h₃, h₄, n₁, n₂, n₃, n₄, ?_, rfl, v₁, v₂, v₃, v₄, by simp⟩
  exact .cons e₁ (.cons e₂ (.cons e₃ (.byte e₄)))

theorem parseUnicodeEscape_sound {out d : Bytes} (h : parseUnicodeEscape text pos out = .ok d pos') :
    ∃ v ch, Consumes text pos pos' v ∧ d = out ++ [ch] ∧
      ∀ w t, StringBody w t → StringBody (backslash :: 0x75 :: v ++ w) (ch :: t) := by
  rw [parseUnicodeEscape] at h
  split at h
  · exact absurd h (by simp)
  · rw [Scan.bind_eq_ok] at h
    obtain ⟨code, p, hd, h⟩ := h
    obtain ⟨h₁, h₂, h₃, h₄, n₁, n₂, n₃, n₄, hc, rfl, v₁, v₂, v₃, v₄, hcode⟩ := unicodeDigits_sound hd
    dsimp only at h
    split at h
    · exact absurd h (by simp)
    · next hle =>
      obtain ⟨rfl, rfl⟩ : d = _ ∧ pos' = _ := by simpa [eq_comm] using h
      exact ⟨[h₁, h₂, h₃, h₄], UInt8.ofNat code, hc, rfl, fun w t hw =>
        .unicode v₁ v₂ v₃ v₄ hcode (by omega) hw⟩

/-- The string loop goes over a body and the closing quote, and appends what the body stands for. -/
theorem parseJsonStringLoop_sound {fuel : ℕ} {out d : Bytes}
    (h : parseJsonStringLoop text fuel pos out = .ok d pos') :
    ∃ body t, Consumes text pos pos' (body ++ [quote]) ∧ StringBody body t ∧ d = out ++ t := by
  induction fuel generalizing pos out with
  | zero =>
    rw [parseJsonStringLoop] at h
    split at h <;> exact absurd h (by simp)
  | succ fuel ih =>
    rw [parseJsonStringLoop] at h
    split at h
    swap
    · exact absurd h (by simp)
    rw [readByte_eq_ok] at h
    obtain ⟨ch, hch, h⟩ := h
    dsimp only at h
    split at h
    · next hq =>
      subst hq
      obtain ⟨rfl, rfl⟩ : d = out ∧ pos' = pos + 1 := by simpa [eq_comm] using h
      exact ⟨[], [], .byte hch, .nil, by simp⟩
    · next hq =>
      split at h
      · next hb =>
        subst hb
        split at h
        · exact absurd h (by simp)
        rw [readByte_eq_ok] at h
        obtain ⟨e, he, h⟩ := h
        split at h
        · next decoded hdec =>
          obtain ⟨body, t, hc, hbody, rfl⟩ := ih h
          exact ⟨backslash :: e :: body, decoded :: t, .cons hch (.cons he hc),
            .escape (escape_of_simpleEscape hdec) hbody, by simp⟩
        · split at h
          · next hu =>
            subst hu
            rw [Scan.bind_eq_ok] at h
            obtain ⟨out', p, hesc, h⟩ := h
            obtain ⟨v, c, hv, rfl, hbuild⟩ := parseUnicodeEscape_sound hesc
            obtain ⟨body, t, hc, hbody, rfl⟩ := ih h
            refine ⟨backslash :: 0x75 :: v ++ body, c :: t, ?_, hbuild body t hbody, by simp⟩
            have := Consumes.cons hch (Consumes.cons he (hv.append hc))
            simpa using this
          · exact absurd h (by simp)
      · next hb =>
        split at h
        · exact absurd h (by simp)
        · next hge =>
          obtain ⟨body, t, hc, hbody, rfl⟩ := ih h
          exact ⟨ch :: body, ch :: t, .cons hch hc, .plain (UInt8.not_lt.mp hge) hq hb hbody, by simp⟩

theorem parseJsonString_sound {d : Bytes} (h : parseJsonString text pos = .ok d pos') :
    ∃ v, Consumes text pos pos' v ∧ StringLit v d := by
  rw [parseJsonString] at h
  split at h
  · next hq =>
    obtain ⟨body, t, hc, hbody, rfl⟩ := parseJsonStringLoop_sound h
    exact ⟨quote :: body ++ [quote], by simpa using Consumes.cons hq hc, body, rfl, by simpa using hbody⟩
  · exact absurd h (by simp)

/-- A digit loop that has moved went over digits. -/
theorem digits_sound (h : advanceWhile isdigit text pos ≠ pos) :
    ∃ v, Consumes text pos (advanceWhile isdigit text pos) v ∧ Digits v := by
  obtain ⟨v, hv, hc⟩ := advanceWhile_consumes isdigit text pos
  refine ⟨v, hc, ?_, hv⟩
  rintro rfl
  exact h (by simpa using hc.pos_eq)

theorem numberFraction_sound (h : numberFraction text pos = .ok () pos') :
    ∃ v, Consumes text pos pos' v ∧ Fraction v := by
  rw [numberFraction] at h
  split at h
  · next hdot =>
    dsimp only at h
    split at h
    · exact absurd h (by simp)
    · next hne =>
      obtain rfl : pos' = _ := by simpa [eq_comm] using h
      obtain ⟨d, hc, hd⟩ := digits_sound hne
      exact ⟨dot :: d, .cons hdot hc, .inr ⟨d, rfl, hd⟩⟩
  · obtain rfl : pos' = pos := by simpa [eq_comm] using h
    exact ⟨[], .nil _ _, .inl rfl⟩

/-- A sign that may be there. -/
theorem skipSign_sound (signs : List UInt8) (text : Bytes) (pos : ℕ) :
    ∃ sign, Consumes text pos (skipSign signs text pos) sign ∧
      (sign = [] ∨ ∃ ch ∈ signs, sign = [ch]) := by
  rw [skipSign]
  split
  · next hs =>
    obtain ⟨ch, hch, hmem⟩ : ∃ ch, text[pos]? = some ch ∧ ch ∈ signs := by
      simpa [Option.any_eq_true] using hs
    exact ⟨[ch], .byte hch, .inr ⟨ch, hmem, rfl⟩⟩
  · exact ⟨[], .nil _ _, .inl rfl⟩

theorem numberExponent_sound (h : numberExponent text pos = .ok () pos') :
    ∃ v, Consumes text pos pos' v ∧ Exponent v := by
  rw [numberExponent] at h
  split at h
  · next he =>
    obtain ⟨e, hch, hee⟩ : ∃ e, text[pos]? = some e ∧ (e = 0x65 ∨ e = 0x45) := by
      rcases he with he | he
      · exact ⟨_, he, .inl rfl⟩
      · exact ⟨_, he, .inr rfl⟩
    obtain ⟨sign, hsc, hsign⟩ := skipSign_sound [plus, minus] text (pos + 1)
    dsimp only at h
    split at h
    · exact absurd h (by simp)
    · next hne =>
      obtain rfl : pos' = _ := by simpa [eq_comm] using h
      obtain ⟨d, hc, hd⟩ := digits_sound hne
      exact ⟨e :: sign ++ d, by simpa using Consumes.cons hch (hsc.append hc),
        .inr ⟨e, sign, d, rfl, hee, by simpa using hsign, hd⟩⟩
  · obtain rfl : pos' = pos := by simpa [eq_comm] using h
    exact ⟨[], .nil _ _, .inl rfl⟩

theorem parseJsonNumberAsString_sound {d : Bytes}
    (h : parseJsonNumberAsString text pos = .ok d pos') : Consumes text pos pos' d ∧ Number d := by
  obtain ⟨sign, hsc, hsign⟩ := skipSign_sound [minus] text pos
  rw [parseJsonNumberAsString] at h
  split at h
  · exact absurd h (by simp)
  · next hne =>
    rw [Scan.bind_eq_ok] at h
    obtain ⟨_, p, hfrac, h⟩ := h
    rw [Scan.bind_eq_ok] at h
    obtain ⟨_, p', hexp, h⟩ := h
    obtain ⟨hd, rfl⟩ : substr text pos (p' - pos) = d ∧ p' = pos' := by simpa using h
    obtain ⟨digits, hdc, hdigits⟩ := digits_sound hne
    obtain ⟨fraction, hfc, hfraction⟩ := numberFraction_sound hfrac
    obtain ⟨exponent, hec, hexponent⟩ := numberExponent_sound hexp
    have hall := ((hsc.append hdc).append hfc).append hec
    rw [← hd, hall.substr_eq]
    exact ⟨hall, sign, digits, fraction, exponent, rfl, by simpa using hsign, hdigits, hfraction, hexponent⟩

theorem consumeJsonLiteral_sound {literal : Bytes}
    (h : consumeJsonLiteral text pos literal = .ok () pos') : Consumes text pos pos' literal := by
  rw [consumeJsonLiteral] at h
  split at h
  · exact absurd h (by simp)
  · split at h
    · exact absurd h (by simp)
    · next hlit =>
      obtain rfl : pos + literal.length = pos' := by simpa using h
      refine Consumes.of_drop_eq (w := (text.drop pos).drop literal.length) ?_
      conv_lhs => rw [← List.take_append_drop literal.length (text.drop pos)]
      rw [show (text.drop pos).take literal.length = literal from not_not.mp hlit]

/-! ### Nested values

The three mutually recursive functions are proved together, by induction on the fuel.  `SoundAt`
says what they guarantee at one fuel; each field of the next one needs only the fields before it.
-/

/-- What the nested scanners guarantee when they are given `fuel`. -/
structure SoundAt (text : Bytes) (fuel : ℕ) : Prop where
  value : ∀ {pos pos'}, consumeJsonValue text fuel pos = .ok () pos' →
    ∃ v, Consumes text (skipWhitespace text pos) pos' v ∧ Derives .value v ∧
      (text[skipWhitespace text pos]? ≠ some quote → Derives .bare v)
  array : ∀ {pos pos'}, text[pos]? = some lbracket → consumeJsonArray text fuel pos = .ok () pos' →
    ∃ v, Consumes text pos pos' v ∧ Derives .bare v
  arrayLoop : ∀ {pos pos'}, text[pos]?.any isspace = false →
    consumeArrayLoop text fuel pos = .ok () pos' →
    ∃ es, Consumes text pos pos' (es ++ [rbracket]) ∧ Derives .elements es
  object : ∀ {pos pos'}, text[pos]? = some lbrace → consumeJsonObject text fuel pos = .ok () pos' →
    ∃ v, Consumes text pos pos' v ∧ Derives .bare v
  objectLoop : ∀ {pos pos'}, consumeObjectLoop text fuel pos = .ok () pos' →
    ∃ ms, Consumes text pos pos' (ms ++ [rbrace]) ∧ Derives .members ms

/-- Skipping white space stops at a byte that is none. -/
theorem skipWhitespace_stops (text : Bytes) (pos : ℕ) :
    (text[skipWhitespace text pos]?).any isspace = false := by
  cases h : text[skipWhitespace text pos]? with
  | none => rfl
  | some ch => exact advanceWhile_stops isspace text pos h

/-- There is nothing to skip in front of a byte that is no white space. -/
theorem skipWhitespace_of_not_space (h : (text[pos]?).any isspace = false) :
    skipWhitespace text pos = pos :=
  advanceWhile_of_consumes (.nil text pos) (by simp) fun ch hch => by simpa [hch] using h

variable {fuel : ℕ}

theorem consumeJsonValue_sound (ih : SoundAt text fuel)
    (h : consumeJsonValue text (fuel + 1) pos = .ok () pos') :
    ∃ v, Consumes text (skipWhitespace text pos) pos' v ∧ Derives .value v ∧
      (text[skipWhitespace text pos]? ≠ some quote → Derives .bare v) := by
  have ofBare : ∀ {v}, Consumes text (skipWhitespace text pos) pos' v → Derives .bare v →
      ∃ v, Consumes text (skipWhitespace text pos) pos' v ∧ Derives .value v ∧
        (text[skipWhitespace text pos]? ≠ some quote → Derives .bare v) :=
    fun hc hv => ⟨_, hc, .ofBare hv, fun _ => hv⟩
  rw [consumeJsonValue] at h
  split at h
  · exact absurd h (by simp)
  rw [readByte_eq_ok] at h
  obtain ⟨ch, hch, h⟩ := h
  split at h
  · next hq =>
    rw [Scan.bind_eq_ok] at h
    obtain ⟨d, p, hs, h⟩ := h
    obtain rfl : p = pos' := by simpa using h
    obtain ⟨v, hc, hv⟩ := parseJsonString_sound hs
    exact ⟨v, hc, .string hv, fun hne => absurd (hq ▸ hch) hne⟩
  split at h
  · next hb =>
    obtain ⟨v, hc, hv⟩ := ih.object (hb ▸ hch) h
    exact ofBare hc hv
  split at h
  · next hb =>
    obtain ⟨v, hc, hv⟩ := ih.array (hb ▸ hch) h
    exact ofBare hc hv
  split at h
  · exact ofBare (consumeJsonLiteral_sound h) .literalTrue
  split at h
  · exact ofBare (consumeJsonLiteral_sound h) .literalFalse
  split at h
  · exact ofBare (consumeJsonLiteral_sound h) .literalNull
  rw [Scan.bind_eq_ok] at h
  obtain ⟨d, p, hn, h⟩ := h
  obtain rfl : p = pos' := by simpa using h
  obtain ⟨hc, hv⟩ := parseJsonNumberAsString_sound hn
  exact ofBare hc (.number hv)

theorem consumeJsonArray_sound (ih : SoundAt text fuel) (hb : text[pos]? = some lbracket)
    (h : consumeJsonArray text (fuel + 1) pos = .ok () pos') :
    ∃ v, Consumes text pos pos' v ∧ Derives .bare v := by
  obtain ⟨w, hw, hwc⟩ := skipWhitespace_consumes text (pos + 1)
  rw [consumeJsonArray] at h
  split at h
  · next hclose =>
    obtain rfl : _ = pos' := by simpa using h
    exact ⟨lbracket :: w ++ [rbracket], .cons hb (hwc.append (.byte hclose)), .emptyArray hw⟩
  · obtain ⟨es, hc, hes⟩ := ih.arrayLoop (skipWhitespace_stops text (pos + 1)) h
    refine ⟨lbracket :: w ++ es ++ [rbracket], ?_, .array hw hes⟩
    simpa using Consumes.cons hb (hwc.append hc)

theorem consumeArrayLoop_sound (ih : SoundAt text fuel) (hns : (text[pos]?).any isspace = false)
    (h : consumeArrayLoop text (fuel + 1) pos = .ok () pos') :
    ∃ es, Consumes text pos pos' (es ++ [rbracket]) ∧ Derives .elements es := by
  rw [consumeArrayLoop] at h
  split at h
  swap
  · exact absurd h (by simp)
  rw [Scan.bind_eq_ok] at h
  obtain ⟨_, p, hval, h⟩ := h
  obtain ⟨v, hvc, hv, -⟩ := ih.value hval
  rw [skipWhitespace_of_not_space hns] at hvc
  obtain ⟨w, hw, hwc⟩ := skipWhitespace_consumes text p
  dsimp only at h
  split at h
  · exact absurd h (by simp)
  rw [readByte_eq_ok] at h
  obtain ⟨ch, hch, h⟩ := h
  split at h
  · next hclose =>
    subst hclose
    obtain rfl : _ = pos' := by simpa using h
    exact ⟨v ++ w, (hvc.append hwc).append (.byte hch), .lastElement hv hw⟩
  split at h
  · exact absurd h (by simp)
  · next hcomma =>
    obtain rfl : ch = comma := not_not.mp hcomma
    obtain ⟨w', hw', hwc'⟩ := skipWhitespace_consumes text (skipWhitespace text p + 1)
    obtain ⟨es, hec, hes⟩ := ih.arrayLoop (skipWhitespace_stops text _) h
    refine ⟨v ++ w ++ comma :: w' ++ es, ?_, .consElement hv hw hw' hes⟩
    simpa using (hvc.append hwc).append (.cons hch (hwc'.append hec))

theorem consumeJsonObject_sound (ih : SoundAt text fuel) (hb : text[pos]? = some lbrace)
    (h : consumeJsonObject text (fuel + 1) pos = .ok () pos') :
    ∃ v, Consumes text pos pos' v ∧ Derives .bare v := by
  obtain ⟨w, hw, hwc⟩ := skipWhitespace_consumes text (pos + 1)
  rw [consumeJsonObject] at h
  split at h
  · next hclose =>
    obtain rfl : _ = pos' := by simpa using h
    exact ⟨lbrace :: w ++ [rbrace], .cons hb (hwc.append (.byte hclose)), .emptyObject hw⟩
  · obtain ⟨ms, hc, hms⟩ := ih.objectLoop h
    refine ⟨lbrace :: w ++ ms ++ [rbrace], ?_, .object hw hms⟩
    simpa using Consumes.cons hb (hwc.append hc)

theorem consumeObjectLoop_sound (ih : SoundAt text fuel)
    (h : consumeObjectLoop text (fuel + 1) pos = .ok () pos') :
    ∃ ms, Consumes text pos pos' (ms ++ [rbrace]) ∧ Derives .members ms := by
  rw [consumeObjectLoop] at h
  split at h
  swap
  · exact absurd h (by simp)
  rw [Scan.bind_eq_ok] at h
  obtain ⟨key, p, hkey, h⟩ := h
  obtain ⟨k, hkc, hk⟩ := parseJsonString_sound hkey
  obtain ⟨w₁, hw₁, hwc₁⟩ := skipWhitespace_consumes text p
  dsimp only at h
  split at h
  · exact absurd h (by simp)
  next hcolon =>
  rw [Scan.bind_eq_ok] at h
  obtain ⟨_, q, hval, h⟩ := h
  obtain ⟨w₂, hw₂, hwc₂⟩ := skipWhitespace_consumes text (skipWhitespace text p + 1)
  obtain ⟨v, hvc, hv, -⟩ := ih.value hval
  rw [skipWhitespace_of_not_space (skipWhitespace_stops text _)] at hvc
  obtain ⟨w₃, hw₃, hwc₃⟩ := skipWhitespace_consumes text q
  have hmember : Consumes text pos (skipWhitespace text q) (k ++ w₁ ++ colon :: w₂ ++ v ++ w₃) := by
    simpa using (hkc.append hwc₁).append
      (.cons (not_not.mp hcolon) ((hwc₂.append hvc).append hwc₃))
  split at h
  · exact absurd h (by simp)
  rw [readByte_eq_ok] at h
  obtain ⟨ch, hch, h⟩ := h
  split at h
  · next hclose =>
    subst hclose
    obtain rfl : _ = pos' := by simpa using h
    exact ⟨_, hmember.append (.byte hch), .lastMember hk hw₁ hw₂ hv hw₃⟩
  split at h
  · exact absurd h (by simp)
  · next hcomma =>
    obtain rfl : ch = comma := not_not.mp hcomma
    obtain ⟨w₄, hw₄, hwc₄⟩ := skipWhitespace_consumes text (skipWhitespace text q + 1)
    obtain ⟨ms, hmc, hms⟩ := ih.objectLoop h
    refine ⟨_, ?_, .consMember hk hw₁ hw₂ hv hw₃ hw₄ hms⟩
    simpa using hmember.append (.cons hch (hwc₄.append hmc))

/-- **The nested scanners are sound**, whatever fuel they are given. -/
theorem soundAt (text : Bytes) (fuel : ℕ) : SoundAt text fuel := by
  induction fuel with
  | zero =>
    refine ⟨fun h => ?_, fun _ h => ?_, fun _ h => ?_, fun _ h => ?_, fun h => ?_⟩ <;>
      simp [consumeJsonValue, consumeJsonArray, consumeArrayLoop, consumeJsonObject,
        consumeObjectLoop] at h
  | succ fuel ih =>
    exact ⟨consumeJsonValue_sound ih, consumeJsonArray_sound ih, consumeArrayLoop_sound ih,
      consumeJsonObject_sound ih, consumeObjectLoop_sound ih⟩

/-! ### The top-level object -/

theorem parseJsonValueAsString_sound {x : Bytes}
    (h : parseJsonValueAsString text pos = .ok x pos') :
    ∃ v, Consumes text pos pos' v ∧ Bound v x := by
  rw [parseJsonValueAsString] at h
  split at h
  · obtain ⟨v, hc, hv⟩ := parseJsonString_sound h
    exact ⟨v, hc, .string hv⟩
  next hq =>
  split at h
  · next hfirst =>
    have hns : (text[pos]?).any isspace = false := by
      rcases hfirst with hf | hf | hf | hf | hf <;> (rw [hf]; decide)
    rw [Scan.bind_eq_ok] at h
    obtain ⟨_, p, hval, h⟩ := h
    obtain ⟨hx, rfl⟩ : substr text pos (p - pos) = x ∧ p = pos' := by simpa using h
    obtain ⟨v, hc, -, hbare⟩ := (soundAt text _).value hval
    rw [skipWhitespace_of_not_space hns] at hc hbare
    rw [← hx, hc.substr_eq]
    exact ⟨v, hc, .bare (hbare hq)⟩
  · obtain ⟨hc, hx⟩ := parseJsonNumberAsString_sound h
    exact ⟨x, hc, .bare (.number hx)⟩

/-- Insert bindings in textual order, as the loop of `parseJsonObject` does. -/
def JsonObject.bindAll (object : JsonObject) (bs : List (Bytes × Bytes)) : JsonObject :=
  bs.foldl (fun object kv => object.insert kv.1 kv.2) object

theorem finishTopLevel_sound {object m : JsonObject} (h : finishTopLevel text pos object = .ok m pos') :
    m = object ∧ ∃ w, Consumes text pos text.length w ∧ Ws w := by
  obtain ⟨w, hw, hwc⟩ := skipWhitespace_consumes text pos
  rw [finishTopLevel] at h
  split at h
  · exact absurd h (by simp)
  · next hend =>
    obtain ⟨rfl, -⟩ : object = m ∧ _ = pos' := by simpa using h
    exact ⟨rfl, w, not_not.mp hend ▸ hwc, hw⟩

theorem parseObjectLoop_sound {object m : JsonObject}
    (h : parseObjectLoop text fuel pos object = .ok m pos') :
    ∃ ms bs w, Consumes text pos text.length (ms ++ rbrace :: w) ∧ Bindings ms bs ∧ Ws w ∧
      m = object.bindAll bs := by
  induction fuel generalizing pos object with
  | zero =>
    rw [parseObjectLoop] at h
    split at h <;> exact absurd h (by simp)
  | succ fuel ih =>
    rw [parseObjectLoop] at h
    split at h
    swap
    · exact absurd h (by simp)
    rw [Scan.bind_eq_ok] at h
    obtain ⟨key, p, hkey, h⟩ := h
    obtain ⟨k, hkc, hk⟩ := parseJsonString_sound hkey
    obtain ⟨w₁, hw₁, hwc₁⟩ := skipWhitespace_consumes text p
    dsimp only at h
    split at h
    · exact absurd h (by simp)
    next hcolon =>
    rw [Scan.bind_eq_ok] at h
    obtain ⟨x, q, hval, h⟩ := h
    obtain ⟨w₂, hw₂, hwc₂⟩ := skipWhitespace_consumes text (skipWhitespace text p + 1)
    obtain ⟨v, hvc, hv⟩ := parseJsonValueAsString_sound hval
    obtain ⟨w₃, hw₃, hwc₃⟩ := skipWhitespace_consumes text q
    have hmember : Consumes text pos (skipWhitespace text q) (k ++ w₁ ++ colon :: w₂ ++ v ++ w₃) := by
      simpa using (hkc.append hwc₁).append
        (.cons (not_not.mp hcolon) ((hwc₂.append hvc).append hwc₃))
    split at h
    · exact absurd h (by simp)
    rw [readByte_eq_ok] at h
    obtain ⟨ch, hch, h⟩ := h
    split at h
    · next hclose =>
      subst hclose
      obtain ⟨rfl, w, hwc, hw⟩ := finishTopLevel_sound h
      exact ⟨_, [(key, x)], w, hmember.append (.cons hch hwc), .last hk hw₁ hw₂ hv hw₃, hw, rfl⟩
    split at h
    · exact absurd h (by simp)
    · next hcomma =>
      obtain rfl : ch = comma := not_not.mp hcomma
      obtain ⟨w₄, hw₄, hwc₄⟩ := skipWhitespace_consumes text (skipWhitespace text q + 1)
      obtain ⟨ms, bs, w, hmc, hms, hw, rfl⟩ := ih h
      refine ⟨_, (key, x) :: bs, w, ?_, .cons hk hw₁ hw₂ hv hw₃ hw₄ hms, hw, rfl⟩
      simpa using hmember.append (.cons hch (hwc₄.append hmc))

/-- **Soundness.**  What `parseJsonObject` accepts is a derivable text, and what it returns binds
the derivation's bindings one after another. -/
theorem parseJsonObject_sound {m : JsonObject} (h : parseJsonObject text = .ok m pos') :
    ∃ bs, Text text bs ∧ m = JsonObject.bindAll ∅ bs := by
  have whole : ∀ {v}, Consumes text 0 text.length v → text = v := by
    intro v hv
    simpa using hv.drop_eq
  obtain ⟨w₁, hw₁, hwc₁⟩ := skipWhitespace_consumes text 0
  obtain ⟨w, hw, hwc⟩ := skipWhitespace_consumes text (skipWhitespace text 0 + 1)
  rw [parseJsonObject] at h
  dsimp only at h
  split at h
  · exact absurd h (by simp)
  next hopen =>
  have hhead := hwc₁.append (.cons (not_not.mp hopen) hwc)
  split at h
  · next hclose =>
    obtain ⟨rfl, w₂, hwc₂, hw₂⟩ := finishTopLevel_sound h
    refine ⟨[], ?_, rfl⟩
    rw [whole (hhead.append (.cons hclose hwc₂))]
    simpa using Text.empty hw₁ hw hw₂
  · obtain ⟨ms, bs, w₂, hmc, hms, hw₂, rfl⟩ := parseObjectLoop_sound h
    refine ⟨bs, ?_, rfl⟩
    rw [whole (hhead.append hmc)]
    simpa using Text.members hw₁ hw hms hw₂

end ChatService
