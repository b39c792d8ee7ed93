import ChatService.Common.JsonArray

/-!
# Escapes that the reader accepts

The grammar has no `\uXXXX` above ASCII, so behind every `\u` of an accepted text there is a `0`.
`asciiEscapes` checks this from the left; it goes over every piece of a derivation (`Derives.passes`).  A text
in which it fails is refused, wherever the escape stands.
-/

namespace ChatService.JsonGrammar

open Byte

/-- Behind every escaping `\u` there is a `0`. -/
def asciiEscapes : Bytes → Bool
  | [] => true
  | [_] => true
  | ch :: escaped :: rest =>
    if ch = backslash then
      if escaped = 0x75 then rest.head? = some zero && asciiEscapes rest else asciiEscapes rest
    else asciiEscapes (escaped :: rest)

/-- The check goes over these bytes. -/
def Passes (v : Bytes) : Prop := ∀ rest, asciiEscapes (v ++ rest) = asciiEscapes rest

theorem asciiEscapes_cons {ch : UInt8} (h : ch ≠ backslash) (rest : Bytes) :
    asciiEscapes (ch :: rest) = asciiEscapes rest := by
  cases rest with
  | nil => rfl
  | cons escaped rest => rw [asciiEscapes, if_neg h]

theorem asciiEscapes_escape {escaped : UInt8} (h : escaped ≠ 0x75) (rest : Bytes) :
    asciiEscapes (backslash :: escaped :: rest) = asciiEscapes rest := by
  rw [asciiEscapes, if_pos rfl, if_neg h]

theorem Passes.nil : Passes [] := fun _ => rfl

theorem Passes.append {v w : Bytes} (hv : Passes v) (hw : Passes w) : Passes (v ++ w) := fun rest => by
  rw [List.append_assoc, hv, hw]

theorem passes_singleton {ch : UInt8} (h : ch ≠ backslash) : Passes [ch] := asciiEscapes_cons h

theorem Passes.cons {ch : UInt8} {v : Bytes} (h : ch ≠ backslash) (hv : Passes v) : Passes (ch :: v) :=
  (passes_singleton h).append hv

theorem passes_of_plain {v : Bytes} (h : ∀ ch ∈ v, ch ≠ backslash) : Passes v := by
  induction v with
  | nil => exact .nil
  | cons ch v ih => exact .cons (h ch List.mem_cons_self) (ih fun b hb => h b (List.mem_cons_of_mem _ hb))

theorem Ws.passes {w : Bytes} (h : Ws w) : Passes w :=
  passes_of_plain fun ch hch =>
    forall_byte (fun ch => isspace ch = true → ch ≠ backslash) (by decide +kernel) ch (h ch hch)

theorem Passes.asciiEscapes {v : Bytes} (h : Passes v) : asciiEscapes v = true := by
  have hnil := h []
  rw [List.append_nil] at hnil
  exact hnil

/-- The check may be made in two parts. -/
def Separate (v : Bytes) : Prop := ∀ rest, asciiEscapes (v ++ rest) = (asciiEscapes v && asciiEscapes rest)

theorem Passes.separate {v : Bytes} (h : Passes v) : Separate v := fun rest => by
  rw [h rest, h.asciiEscapes, Bool.true_and]

theorem Separate.append {v w : Bytes} (hv : Separate v) (hw : Separate w) : Separate (v ++ w) := fun rest => by
  rw [List.append_assoc, hv, hw, hv w, Bool.and_assoc]

theorem separate_intercalate {sep : Bytes} (hsep : Passes sep) {vs : List Bytes} (h : ∀ v ∈ vs, Separate v) :
    Separate (List.intercalate sep vs) ∧ asciiEscapes (List.intercalate sep vs) = vs.all asciiEscapes := by
  induction vs with
  | nil => exact ⟨Passes.nil.separate, rfl⟩
  | cons v vs ih =>
    have hv : Separate v := h v List.mem_cons_self
    obtain ⟨hrest, hall⟩ := ih fun w hw => h w (List.mem_cons_of_mem _ hw)
    cases vs with
    | nil =>
      have hone : List.intercalate sep [v] = v := by simp [List.intercalate]
      rw [hone]
      exact ⟨hv, (Bool.and_true _).symm⟩
    | cons w vs =>
      have hmore : List.intercalate sep (v :: w :: vs) = v ++ (sep ++ List.intercalate sep (w :: vs)) := by
        simp [List.intercalate]
      rw [hmore]
      refine ⟨hv.append (hsep.separate.append hrest), ?_⟩
      rw [hv, hsep, hall]
      rfl

/-! ### Strings -/

theorem hexValue_ne_backslash {ch : UInt8} {n : ℕ} (h : hexValue ch = some n) : ch ≠ backslash := by
  rintro rfl
  exact absurd ((show hexValue backslash = none by decide).symm.trans h) nofun

/-- Four digits that stand for an ASCII character begin with a `0`. -/
theorem eq_zero_of_hexValue {ch : UInt8} (h : hexValue ch = some 0) : ch = zero :=
  forall_byte (fun ch => hexValue ch = some 0 → ch = zero) (by decide +kernel) ch h

theorem StringBody.passes {v d : Bytes} (h : StringBody v d) : Passes v := by
  induction h with
  | nil => exact .nil
  | plain _ _ hbackslash _ ih => exact .cons hbackslash ih
  | @escape e ch v d he _ ih =>
    have hu : e ≠ 0x75 := by
      rintro rfl
      cases he
    exact fun rest => (asciiEscapes_escape hu _).trans (ih rest)
  | @unicode h₁ h₂ h₃ h₄ n₁ n₂ n₃ n₄ code v d hv₁ hv₂ hv₃ hv₄ hcode hle _ ih =>
    have hn₁ : n₁ = 0 := by omega
    have hfirst : h₁ = zero := eq_zero_of_hexValue (hn₁ ▸ hv₁)
    have hdigits : Passes ([h₁, h₂, h₃, h₄] ++ v) :=
      .cons (hexValue_ne_backslash hv₁) (.cons (hexValue_ne_backslash hv₂)
        (.cons (hexValue_ne_backslash hv₃) (.cons (hexValue_ne_backslash hv₄) ih)))
    intro rest
    show asciiEscapes (backslash :: 0x75 :: ([h₁, h₂, h₃, h₄] ++ v ++ rest)) = _
    rw [asciiEscapes, if_pos rfl, if_pos rfl, hdigits, hfirst]
    rfl

theorem StringLit.passes {v d : Bytes} (h : StringLit v d) : Passes v := by
  obtain ⟨body, rfl, hbody⟩ := h
  exact (Passes.cons (by decide) hbody.passes).append (passes_singleton (by decide))

/-! ### Values -/

theorem Digits.passes {v : Bytes} (h : Digits v) : Passes v :=
  passes_of_plain fun ch hch =>
    forall_byte (fun ch => isdigit ch = true → ch ≠ backslash) (by decide +kernel) ch (h.2 ch hch)

theorem Number.passes {v : Bytes} (h : Number v) : Passes v := by
  obtain ⟨sign, digits, fraction, exponent, rfl, hsign, hdigits, hfraction, hexponent⟩ := h
  have hsign' : Passes sign := by
    rcases hsign with rfl | rfl
    · exact .nil
    · exact passes_singleton (by decide)
  have hfraction' : Passes fraction := by
    rcases hfraction with rfl | ⟨d, rfl, hd⟩
    · exact .nil
    · exact .cons (by decide) hd.passes
  have hexponent' : Passes exponent := by
    rcases hexponent with rfl | ⟨e, sign, d, rfl, he, hs, hd⟩
    · exact .nil
    · have he' : e ≠ backslash := by rcases he with rfl | rfl <;> decide
      have hs' : Passes sign := by
        rcases hs with rfl | rfl | rfl
        · exact .nil
        · exact passes_singleton (by decide)
        · exact passes_singleton (by decide)
      exact (Passes.cons he' hs').append hd.passes
  exact ((hsign'.append hdigits.passes).append hfraction').append hexponent'

/-- **Every derivation passes.** -/
theorem Derives.passes {symbol : Symbol} {v : Bytes} (h : Derives symbol v) : Passes v := by
  have hcomma : comma ≠ backslash := by decide
  have hcolon : colon ≠ backslash := by decide
  induction h with
  | number h => exact h.passes
  | literalTrue => exact passes_of_plain (by decide +kernel)
  | literalFalse => exact passes_of_plain (by decide +kernel)
  | literalNull => exact passes_of_plain (by decide +kernel)
  | emptyArray hw => exact (Passes.cons (by decide) hw.passes).append (passes_singleton (by decide))
  | array hw _ ih => exact ((Passes.cons (by decide) hw.passes).append ih).append (passes_singleton (by decide))
  | emptyObject hw => exact (Passes.cons (by decide) hw.passes).append (passes_singleton (by decide))
  | object hw _ ih => exact ((Passes.cons (by decide) hw.passes).append ih).append (passes_singleton (by decide))
  | string h => exact h.passes
  | ofBare _ ih => exact ih
  | lastElement _ hw ih => exact ih.append hw.passes
  | consElement _ hw hw' _ ih ih' => exact ((ih.append hw.passes).append (.cons hcomma hw'.passes)).append ih'
  | lastMember hk hw₁ hw₂ _ hw₃ ih =>
    exact (((hk.passes.append hw₁.passes).append (.cons hcolon hw₂.passes)).append ih).append hw₃.passes
  | consMember hk hw₁ hw₂ _ hw₃ hw₄ _ ih ih' =>
    have hmember := (((hk.passes.append hw₁.passes).append (.cons hcolon hw₂.passes)).append ih).append hw₃.passes
    exact (hmember.append (.cons hcomma hw₄.passes)).append ih'

theorem Bindings.passes {ms : Bytes} {bs : List (Bytes × Bytes)} (h : Bindings ms bs) : Passes ms := h.derives.passes

theorem Text.passes {text : Bytes} {bs : List (Bytes × Bytes)} (h : Text text bs) : Passes text := by
  cases h with
  | empty hw₁ hw hw₂ =>
    exact (hw₁.passes.append (.cons (by decide) hw.passes)).append (.cons (by decide) hw₂.passes)
  | members hw₁ hw hms hw₂ =>
    exact ((hw₁.passes.append (.cons (by decide) hw.passes)).append hms.passes).append (.cons (by decide) hw₂.passes)

/-- **A text with an escape above ASCII is refused.** -/
theorem asciiEscapes_of_parse {text : Bytes} {m : JsonObject} {pos : ℕ} (h : parseJsonObject text = .ok m pos) :
    asciiEscapes text = true := by
  obtain ⟨bs, htext, -⟩ := (parseJsonObject_ok_iff text m).mp ⟨pos, h⟩
  exact htext.passes.asciiEscapes

end ChatService.JsonGrammar
