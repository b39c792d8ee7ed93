import ChatService.Common.Json

/-!
# The reader stays inside its text

No scanner reads at or past the end of the text, each one leaves the position at most at the end,
and each one that succeeds has moved forward.  The loops and the calls between the nested scanners
stop within the fuel they are given: three for each byte that is left.  More fuel changes nothing
(`StableAt`), so this is what the recursion of the source computes (`scanners_terminate`).
-/

namespace ChatService

open Byte

variable {text : Bytes} {pos : ℕ}

theorem succ_le_length_of_getElem? {ch : UInt8} (h : text[pos]? = some ch) :
    pos + 1 ≤ text.length :=
  (List.getElem?_eq_some_iff.mp h).1

/-! ### Leaves -/

theorem le_skipWhitespace (text : Bytes) (pos : ℕ) : pos ≤ skipWhitespace text pos :=
  le_advanceWhile isspace text pos

theorem skipWhitespace_le (h : pos ≤ text.length) : skipWhitespace text pos ≤ text.length :=
  advanceWhile_le isspace h

theorem unicodeDigits_within {is : List ℕ} (code : ℕ) (his : ∀ i ∈ is, pos + i < text.length)
    (hpos : pos ≤ text.length) :
    (unicodeDigits text pos is code).Within text pos := by
  induction is generalizing code with
  | nil => exact ⟨le_rfl, hpos⟩
  | cons i rest ih =>
    rw [unicodeDigits]
    refine readByte_within (his i (by simp)) fun ch _ => ?_
    split
    · exact hpos
    · exact ih _ fun j hj => his j (by simp [hj])

/-- The digit loop does not move; the escape ends four bytes on. -/
theorem unicodeDigits_pos {is : List ℕ} {code c p : ℕ}
    (h : unicodeDigits text pos is code = .ok c p) : p = pos := by
  induction is generalizing code with
  | nil =>
    obtain ⟨-, rfl⟩ : code = c ∧ pos = p := by simpa [unicodeDigits] using h
    rfl
  | cons i rest ih =>
    rw [unicodeDigits, readByte_eq_ok] at h
    obtain ⟨ch, -, h⟩ := h
    split at h
    · exact absurd h (by simp)
    · exact ih h

theorem parseUnicodeEscape_within (out : Bytes) (hpos : pos ≤ text.length) :
    (parseUnicodeEscape text pos out).Within text (pos + 4) := by
  rw [parseUnicodeEscape]
  split
  · exact hpos
  next hroom =>
  have hdigits : (unicodeDigits text pos [0, 1, 2, 3] 0).Within text pos :=
    unicodeDigits_within 0 (by simp; omega) hpos
  cases hd : unicodeDigits text pos [0, 1, 2, 3] 0 with
  | ok code p =>
    obtain rfl := unicodeDigits_pos hd
    rw [Scan.bind_ok]
    split <;> simp <;> omega
  | error m p => rwa [hd] at hdigits
  | outOfRange => rwa [hd] at hdigits
  | outOfFuel => rwa [hd] at hdigits

theorem parseJsonStringLoop_within {fuel : ℕ} (out : Bytes) (hpos : pos ≤ text.length)
    (hfuel : text.length - pos ≤ fuel) :
    (parseJsonStringLoop text fuel pos out).Within text pos := by
  induction fuel generalizing pos out with
  | zero =>
    rw [parseJsonStringLoop, if_neg (by omega)]
    exact hpos
  | succ fuel ih =>
    rw [parseJsonStringLoop]
    split
    swap
    · exact hpos
    next hlt =>
    refine readByte_within hlt fun ch _ => ?_
    dsimp only
    split
    · exact ⟨by omega, hlt⟩
    split
    · split
      · exact hlt
      next hroom =>
      refine readByte_within (by omega) fun escaped _ => ?_
      split
      · exact (ih _ (by omega) (by omega)).mono (by omega)
      split
      · refine (parseUnicodeEscape_within out (by omega)).bind fun out' p hp hp' => ?_
        exact (ih out' hp' (by omega)).mono (by omega)
      · exact (by omega : pos + 1 + 1 ≤ text.length)
    split
    · exact hlt
    · exact (ih _ hlt (by omega)).mono (by omega)

theorem parseJsonString_within (hpos : pos ≤ text.length) :
    (parseJsonString text pos).Within text (pos + 1) := by
  rw [parseJsonString]
  split
  · next hq =>
    have hlt := succ_le_length_of_getElem? hq
    exact parseJsonStringLoop_within [] hlt (by omega)
  · exact hpos

theorem skipSign_bounds (signs : List UInt8) (hpos : pos ≤ text.length) :
    pos ≤ skipSign signs text pos ∧ skipSign signs text pos ≤ text.length := by
  rw [skipSign]
  cases hch : text[pos]? with
  | none => simpa using hpos
  | some ch =>
    have := succ_le_length_of_getElem? hch
    split <;> omega

theorem numberFraction_within (hpos : pos ≤ text.length) :
    (numberFraction text pos).Within text pos := by
  rw [numberFraction]
  split
  · next hdot =>
    have hlt := succ_le_length_of_getElem? hdot
    have hle : advanceWhile isdigit text (pos + 1) ≤ text.length := advanceWhile_le isdigit hlt
    have hge := le_advanceWhile isdigit text (pos + 1)
    dsimp only
    split
    · exact hle
    · exact ⟨by omega, hle⟩
  · exact ⟨le_rfl, hpos⟩

theorem numberExponent_within (hpos : pos ≤ text.length) :
    (numberExponent text pos).Within text pos := by
  rw [numberExponent]
  split
  · next he =>
    have hlt : pos + 1 ≤ text.length := by
      rcases he with he | he <;> exact succ_le_length_of_getElem? he
    obtain ⟨hs, hs'⟩ := skipSign_bounds [plus, minus] hlt
    have hle := advanceWhile_le isdigit hs'
    have hge := le_advanceWhile isdigit text (skipSign [plus, minus] text (pos + 1))
    dsimp only
    split
    · exact hle
    · exact ⟨by omega, hle⟩
  · exact ⟨le_rfl, hpos⟩

theorem parseJsonNumberAsString_within (hpos : pos ≤ text.length) :
    (parseJsonNumberAsString text pos).Within text (pos + 1) := by
  obtain ⟨hs, hs'⟩ := skipSign_bounds [minus] hpos
  have hle := advanceWhile_le isdigit hs'
  have hge := le_advanceWhile isdigit text (skipSign [minus] text pos)
  rw [parseJsonNumberAsString]
  split
  · exact hle
  next hmoved =>
  refine (numberFraction_within hle).bind fun _ p hp hp' => ?_
  refine (numberExponent_within hp').bind fun _ q hq hq' => ?_
  exact ⟨by omega, hq'⟩

theorem consumeJsonLiteral_within {literal : Bytes} (hne : literal ≠ []) (hpos : pos ≤ text.length) :
    (consumeJsonLiteral text pos literal).Within text (pos + 1) := by
  rw [consumeJsonLiteral, if_neg (by omega)]
  split
  · exact hpos
  next hmatch =>
  have hlen := congrArg List.length (not_not.mp hmatch)
  have hpositive := List.length_pos_iff.mpr hne
  simp only [substr, List.length_take, List.length_drop] at hlen
  exact ⟨by omega, by omega⟩

/-! ### Nested values -/

/-- What the five nested scanners keep to when they are given `fuel`. -/
structure SafeAt (text : Bytes) (fuel : ℕ) : Prop where
  value : ∀ {pos}, pos ≤ text.length → 3 * (text.length - pos) + 3 ≤ fuel →
    (consumeJsonValue text fuel pos).Within text (pos + 1)
  array : ∀ {pos}, pos + 1 ≤ text.length → 3 * (text.length - pos) + 2 ≤ fuel →
    (consumeJsonArray text fuel pos).Within text (pos + 1)
  arrayLoop : ∀ {pos}, pos ≤ text.length → 3 * (text.length - pos) + 4 ≤ fuel →
    (consumeArrayLoop text fuel pos).Within text (pos + 1)
  object : ∀ {pos}, pos + 1 ≤ text.length → 3 * (text.length - pos) + 2 ≤ fuel →
    (consumeJsonObject text fuel pos).Within text (pos + 1)
  objectLoop : ∀ {pos}, pos ≤ text.length → 3 * (text.length - pos) + 4 ≤ fuel →
    (consumeObjectLoop text fuel pos).Within text (pos + 1)

variable {fuel : ℕ}

theorem consumeJsonValue_within (ih : SafeAt text fuel) (hpos : pos ≤ text.length)
    (hfuel : 3 * (text.length - pos) + 3 ≤ fuel + 1) :
    (consumeJsonValue text (fuel + 1) pos).Within text (pos + 1) := by
  have hskip := le_skipWhitespace text pos
  have hskip' := skipWhitespace_le hpos
  rw [consumeJsonValue]
  split
  · exact hskip'
  next hroom =>
  refine readByte_within (by omega) fun ch _ => ?_
  split_ifs
  · refine (parseJsonString_within hskip').bind fun _ p hp hp' => ⟨by omega, hp'⟩
  · exact (ih.object (by omega) (by omega)).mono (by omega)
  · exact (ih.array (by omega) (by omega)).mono (by omega)
  · exact (consumeJsonLiteral_within (by decide) hskip').mono (by omega)
  · exact (consumeJsonLiteral_within (by decide) hskip').mono (by omega)
  · exact (consumeJsonLiteral_within (by decide) hskip').mono (by omega)
  · refine (parseJsonNumberAsString_within hskip').bind fun _ p hp hp' => ⟨by omega, hp'⟩

theorem consumeJsonArray_within (ih : SafeAt text fuel) (hpos : pos + 1 ≤ text.length)
    (hfuel : 3 * (text.length - pos) + 2 ≤ fuel + 1) :
    (consumeJsonArray text (fuel + 1) pos).Within text (pos + 1) := by
  have hskip := le_skipWhitespace text (pos + 1)
  rw [consumeJsonArray]
  split
  · next hclose =>
    have := succ_le_length_of_getElem? hclose
    exact ⟨by omega, by omega⟩
  · exact (ih.arrayLoop (skipWhitespace_le hpos) (by omega)).mono (by omega)

theorem consumeArrayLoop_within (ih : SafeAt text fuel) (hpos : pos ≤ text.length)
    (hfuel : 3 * (text.length - pos) + 4 ≤ fuel + 1) :
    (consumeArrayLoop text (fuel + 1) pos).Within text (pos + 1) := by
  rw [consumeArrayLoop]
  split
  swap
  · exact hpos
  next hlt =>
  refine (ih.value hpos (by omega)).bind fun _ p hp hp' => ?_
  have hskip := le_skipWhitespace text p
  have hskip' := skipWhitespace_le hp'
  dsimp only
  split
  · exact hskip'
  next hroom =>
  refine readByte_within (by omega) fun ch _ => ?_
  split_ifs
  · exact ⟨by omega, by omega⟩
  · exact hskip'
  · have hnext := le_skipWhitespace text (skipWhitespace text p + 1)
    exact (ih.arrayLoop (skipWhitespace_le (by omega)) (by omega)).mono (by omega)

theorem consumeJsonObject_within (ih : SafeAt text fuel) (hpos : pos + 1 ≤ text.length)
    (hfuel : 3 * (text.length - pos) + 2 ≤ fuel + 1) :
    (consumeJsonObject text (fuel + 1) pos).Within text (pos + 1) := by
  have hskip := le_skipWhitespace text (pos + 1)
  rw [consumeJsonObject]
  split
  · next hclose =>
    have := succ_le_length_of_getElem? hclose
    exact ⟨by omega, by omega⟩
  · exact (ih.objectLoop (skipWhitespace_le hpos) (by omega)).mono (by omega)

theorem consumeObjectLoop_within (ih : SafeAt text fuel) (hpos : pos ≤ text.length)
    (hfuel : 3 * (text.length - pos) + 4 ≤ fuel + 1) :
    (consumeObjectLoop text (fuel + 1) pos).Within text (pos + 1) := by
  rw [consumeObjectLoop]
  split
  swap
  · exact hpos
  next hlt =>
  refine (parseJsonString_within hpos).bind fun _ p hp hp' => ?_
  have hcolon := le_skipWhitespace text p
  have hcolon' := skipWhitespace_le hp'
  dsimp only
  split
  · exact hcolon'
  next hch =>
  have hlt' := succ_le_length_of_getElem? (not_not.mp hch)
  have hvalue := le_skipWhitespace text (skipWhitespace text p + 1)
  refine (ih.value (skipWhitespace_le hlt') (by omega)).bind fun _ q hq hq' => ?_
  have hskip := le_skipWhitespace text q
  have hskip' := skipWhitespace_le hq'
  split
  · exact hskip'
  next hroom =>
  refine readByte_within (by omega) fun ch _ => ?_
  split_ifs
  · exact ⟨by omega, by omega⟩
  · exact hskip'
  · have hnext := le_skipWhitespace text (skipWhitespace text q + 1)
    exact (ih.objectLoop (skipWhitespace_le (by omega)) (by omega)).mono (by omega)

/-- **The nested scanners are safe**, at every fuel that covers what is left of the text. -/
theorem safeAt (text : Bytes) (fuel : ℕ) : SafeAt text fuel := by
  induction fuel with
  | zero =>
    refine ⟨fun _ h => ?_, fun _ h => ?_, fun _ h => ?_, fun _ h => ?_, fun _ h => ?_⟩ <;> omega
  | succ fuel ih =>
    exact ⟨consumeJsonValue_within ih, consumeJsonArray_within ih, consumeArrayLoop_within ih,
      consumeJsonObject_within ih, consumeObjectLoop_within ih⟩

/-! ### The top-level object -/

theorem parseJsonValueAsString_within (hpos : pos ≤ text.length) :
    (parseJsonValueAsString text pos).Within text (pos + 1) := by
  rw [parseJsonValueAsString]
  split
  · exact parseJsonString_within hpos
  split
  · have hfuel : 3 * (text.length - pos) + 3 ≤ consumeFuel text := by
      rw [consumeFuel]
      omega
    exact ((safeAt text _).value hpos hfuel).bind fun _ p hp hp' => ⟨hp, hp'⟩
  · exact parseJsonNumberAsString_within hpos

theorem finishTopLevel_within (object : JsonObject) (hpos : pos ≤ text.length) :
    (finishTopLevel text pos object).Within text pos := by
  rw [finishTopLevel]
  split
  · exact skipWhitespace_le hpos
  · exact ⟨le_skipWhitespace text pos, skipWhitespace_le hpos⟩

theorem parseObjectLoop_within (object : JsonObject) (hpos : pos ≤ text.length)
    (hfuel : text.length - pos ≤ fuel) :
    (parseObjectLoop text fuel pos object).Within text pos := by
  induction fuel generalizing pos object with
  | zero =>
    rw [parseObjectLoop, if_neg (by omega)]
    exact hpos
  | succ fuel ih =>
    rw [parseObjectLoop]
    split
    swap
    · exact hpos
    next hlt =>
    refine (parseJsonString_within hpos).bind fun key p hp hp' => ?_
    have hcolon := le_skipWhitespace text p
    have hcolon' := skipWhitespace_le hp'
    dsimp only
    split
    · exact hcolon'
    next hch =>
    have hlt' := succ_le_length_of_getElem? (not_not.mp hch)
    have hvalue := le_skipWhitespace text (skipWhitespace text p + 1)
    refine (parseJsonValueAsString_within (skipWhitespace_le hlt')).bind fun value q hq hq' => ?_
    have hskip := le_skipWhitespace text q
    have hskip' := skipWhitespace_le hq'
    split
    · exact hskip'
    next hroom =>
    refine readByte_within (by omega) fun ch _ => ?_
    split_ifs
    · exact (finishTopLevel_within _ (by omega)).mono (by omega)
    · exact hskip'
    · have hnext := le_skipWhitespace text (skipWhitespace text q + 1)
      exact (ih _ (skipWhitespace_le (by omega)) (by omega)).mono (by omega)

/-- **The reader is safe** on every text: it ends with a map or an error, inside the text. -/
theorem parseJsonObject_within (text : Bytes) : (parseJsonObject text).Within text 1 := by
  have hskip' : skipWhitespace text 0 ≤ text.length := skipWhitespace_le (Nat.zero_le _)
  rw [parseJsonObject]
  dsimp only
  split
  · exact hskip'
  next hopen =>
  have hlt := succ_le_length_of_getElem? (not_not.mp hopen)
  have hnext := le_skipWhitespace text (skipWhitespace text 0 + 1)
  split
  · next hclose =>
    exact (finishTopLevel_within ∅ (succ_le_length_of_getElem? hclose)).mono (by omega)
  · exact (parseObjectLoop_within ∅ (skipWhitespace_le hlt) (by omega)).mono (by omega)

/-! ### Fuel

What is reached within some fuel is reached within more of it, so the scanners terminate as the loops and the
calls of the source do: without a bound. -/

/-- The second scan ends as the first one does, unless the first one has run out of fuel. -/
def Scan.Extends {α : Type} (x y : Scan α) : Prop := x = .outOfFuel ∨ x = y

section Extends

variable {α β : Type}

theorem Scan.Extends.refl (x : Scan α) : x.Extends x := .inr rfl

theorem Scan.Extends.bind {x y : Scan α} {next next' : α → ℕ → Scan β} (h : x.Extends y)
    (hnext : ∀ a pos, (next a pos).Extends (next' a pos)) : (x.bind next).Extends (y.bind next') := by
  rcases h with rfl | rfl
  · exact .inl rfl
  · cases x with
    | ok a pos => exact hnext a pos
    | error m pos => exact .refl _
    | outOfRange => exact .refl _
    | outOfFuel => exact .refl _

theorem readByte_extends {next next' : UInt8 → Scan β} (hnext : ∀ ch, (next ch).Extends (next' ch)) :
    (readByte text pos next).Extends (readByte text pos next') := by
  rw [readByte, readByte]
  split
  · exact hnext _
  · exact .refl _

end Extends

/-- One more unit of fuel changes none of the five answers. -/
structure StableAt (text : Bytes) (fuel : ℕ) : Prop where
  value : ∀ pos, (consumeJsonValue text fuel pos).Extends (consumeJsonValue text (fuel + 1) pos)
  array : ∀ pos, (consumeJsonArray text fuel pos).Extends (consumeJsonArray text (fuel + 1) pos)
  arrayLoop : ∀ pos, (consumeArrayLoop text fuel pos).Extends (consumeArrayLoop text (fuel + 1) pos)
  object : ∀ pos, (consumeJsonObject text fuel pos).Extends (consumeJsonObject text (fuel + 1) pos)
  objectLoop : ∀ pos, (consumeObjectLoop text fuel pos).Extends (consumeObjectLoop text (fuel + 1) pos)

theorem consumeJsonValue_extends (ih : StableAt text fuel) (pos : ℕ) :
    (consumeJsonValue text (fuel + 1) pos).Extends (consumeJsonValue text (fuel + 1 + 1) pos) := by
  rw [consumeJsonValue, consumeJsonValue]
  split
  · exact .refl _
  refine readByte_extends fun ch => ?_
  split_ifs
  · exact .refl _
  · exact ih.object _
  · exact ih.array _
  · exact .refl _
  · exact .refl _
  · exact .refl _
  · exact .refl _

theorem consumeJsonArray_extends (ih : StableAt text fuel) (pos : ℕ) :
    (consumeJsonArray text (fuel + 1) pos).Extends (consumeJsonArray text (fuel + 1 + 1) pos) := by
  rw [consumeJsonArray, consumeJsonArray]
  split
  · exact .refl _
  · exact ih.arrayLoop _

theorem consumeArrayLoop_extends (ih : StableAt text fuel) (pos : ℕ) :
    (consumeArrayLoop text (fuel + 1) pos).Extends (consumeArrayLoop text (fuel + 1 + 1) pos) := by
  rw [consumeArrayLoop, consumeArrayLoop]
  split
  swap
  · exact .refl _
  refine (ih.value pos).bind fun _ p => ?_
  dsimp only
  split
  · exact .refl _
  refine readByte_extends fun ch => ?_
  split_ifs
  · exact .refl _
  · exact .refl _
  · exact ih.arrayLoop _

theorem consumeJsonObject_extends (ih : StableAt text fuel) (pos : ℕ) :
    (consumeJsonObject text (fuel + 1) pos).Extends (consumeJsonObject text (fuel + 1 + 1) pos) := by
  rw [consumeJsonObject, consumeJsonObject]
  split
  · exact .refl _
  · exact ih.objectLoop _

theorem consumeObjectLoop_extends (ih : StableAt text fuel) (pos : ℕ) :
    (consumeObjectLoop text (fuel + 1) pos).Extends (consumeObjectLoop text (fuel + 1 + 1) pos) := by
  rw [consumeObjectLoop, consumeObjectLoop]
  split
  swap
  · exact .refl _
  refine (Scan.Extends.refl (parseJsonString text pos)).bind fun _ p => ?_
  dsimp only
  split
  · exact .refl _
  refine (ih.value _).bind fun _ q => ?_
  split
  · exact .refl _
  refine readByte_extends fun ch => ?_
  split_ifs
  · exact .refl _
  · exact .refl _
  · exact ih.objectLoop _

theorem stableAt (text : Bytes) (fuel : ℕ) : StableAt text fuel := by
  induction fuel with
  | zero =>
    refine ⟨fun _ => .inl ?_, fun _ => .inl ?_, fun _ => .inl ?_, fun _ => .inl ?_, fun _ => .inl ?_⟩
    · rw [consumeJsonValue]
    · rw [consumeJsonArray]
    · rw [consumeArrayLoop]
    · rw [consumeJsonObject]
    · rw [consumeObjectLoop]
  | succ fuel ih =>
    exact ⟨consumeJsonValue_extends ih, consumeJsonArray_extends ih, consumeArrayLoop_extends ih,
      consumeJsonObject_extends ih, consumeObjectLoop_extends ih⟩

/-- The scan ends inside the text, behind `lo` when it succeeds, and so it does from the fuel `bound` on. -/
def Terminates {α : Type} (text : Bytes) (lo bound : ℕ) (scan : ℕ → Scan α) : Prop :=
  ∃ result : Scan α, result.Within text lo ∧ ∀ fuel, bound ≤ fuel → scan fuel = result

theorem terminates_of_stable {α : Type} {lo bound : ℕ} {scan : ℕ → Scan α}
    (hstable : ∀ fuel, (scan fuel).Extends (scan (fuel + 1))) (hwithin : (scan bound).Within text lo) :
    Terminates text lo bound scan := by
  refine ⟨scan bound, hwithin, fun fuel hfuel => ?_⟩
  induction fuel, hfuel using Nat.le_induction with
  | base => rfl
  | succ fuel _ ih =>
    rcases hstable fuel with hout | hsame
    · rw [← ih, hout] at hwithin
      exact hwithin.elim
    · exact hsame.symm.trans ih

/-- **The scanners terminate, stay inside the text and move forward**, on every text and from every position that a
caller passes: a value is looked for anywhere up to the end, an array or an object at its opening bracket. -/
theorem scanners_terminate (text : Bytes) :
    (∀ pos ≤ text.length, (parseJsonString text pos).Within text (pos + 1)) ∧
    (∀ pos ≤ text.length, (parseJsonNumberAsString text pos).Within text (pos + 1)) ∧
    (∀ pos ≤ text.length, Terminates text (pos + 1) (3 * (text.length - pos) + 3) (consumeJsonValue text · pos)) ∧
    (∀ pos < text.length, Terminates text (pos + 1) (3 * (text.length - pos) + 2) (consumeJsonArray text · pos)) ∧
    (∀ pos < text.length, Terminates text (pos + 1) (3 * (text.length - pos) + 2) (consumeJsonObject text · pos)) ∧
    (parseJsonObject text).Within text 1 := by
  refine ⟨fun pos => parseJsonString_within, fun pos => parseJsonNumberAsString_within, ?_, ?_, ?_,
    parseJsonObject_within text⟩
  · intro pos hpos
    exact terminates_of_stable (fun fuel => (stableAt text fuel).value pos) ((safeAt text _).value hpos le_rfl)
  · intro pos hpos
    exact terminates_of_stable (fun fuel => (stableAt text fuel).array pos) ((safeAt text _).array hpos le_rfl)
  · intro pos hpos
    exact terminates_of_stable (fun fuel => (stableAt text fuel).object pos) ((safeAt text _).object hpos le_rfl)

end ChatService
