import ChatService.Common.JsonRoundTrip

/-!
# Reading a text from the left

String literals end themselves, so a derivation of an object has no choice about members whose keys and
values are string literals: what stands in front is what it begins with.

* `StringBody.unique` — two literals in front of one text are the same.
* `Bindings.of_string_member` — a string member in front of a comma is the first binding.
* `Text.of_member` — an object that begins with a member.
* `Bindings.of_last_field` — a field behind which only the closing brace of the text is known.
-/

namespace ChatService.JsonGrammar

open Byte

/-! ### Literals -/

theorem Escape.unique {e ch ch' : UInt8} (h : Escape e ch) (h' : Escape e ch') : ch = ch' :=
  Option.some.inj ((simpleEscape_of_escape h).symm.trans (simpleEscape_of_escape h'))

/-- No one-letter escape is spelled like the start of `\uXXXX`. -/
theorem Escape.ne_u {ch : UInt8} : ¬ Escape 0x75 ch := by
  intro h
  have hsome := simpleEscape_of_escape h
  rw [show simpleEscape 0x75 = none from rfl] at hsome
  exact absurd hsome (by simp)

/-- The body of a literal ends at its quote, and stands for one string. -/
theorem StringBody.unique {v d : Bytes} (h : StringBody v d) :
    ∀ {v' d' r r' : Bytes}, StringBody v' d' → v ++ quote :: r = v' ++ quote :: r' →
      v = v' ∧ d = d' ∧ r = r' := by
  induction h with
  | nil =>
    intro v' d' r r' h' heq
    cases h' with
    | nil => exact ⟨rfl, rfl, (List.cons.inj heq).2⟩
    | plain _ hquote _ _ => exact absurd (List.cons.inj heq).1.symm hquote
    | escape _ _ => exact absurd (List.cons.inj heq).1 (by decide)
    | unicode _ _ _ _ _ _ _ => exact absurd (List.cons.inj heq).1 (by decide)
  | @plain ch v d hlow hquote hbackslash _ ih =>
    intro v' d' r r' h' heq
    cases h' with
    | nil => exact absurd (List.cons.inj heq).1 hquote
    | plain _ _ _ h' =>
      obtain ⟨rfl, hrest⟩ := List.cons.inj heq
      obtain ⟨rfl, rfl, rfl⟩ := ih h' hrest
      exact ⟨rfl, rfl, rfl⟩
    | escape _ _ => exact absurd (List.cons.inj heq).1 hbackslash
    | unicode _ _ _ _ _ _ _ => exact absurd (List.cons.inj heq).1 hbackslash
  | @escape e ch v d he _ ih =>
    intro v' d' r r' h' heq
    cases h' with
    | nil => exact absurd (List.cons.inj heq).1 (by decide)
    | plain _ _ hbackslash _ => exact absurd (List.cons.inj heq).1.symm hbackslash
    | escape he' h' =>
      obtain ⟨rfl, hrest⟩ := List.cons.inj (List.cons.inj heq).2
      obtain ⟨rfl, rfl, rfl⟩ := ih h' hrest
      exact ⟨rfl, by rw [he.unique he'], rfl⟩
    | unicode _ _ _ _ _ _ _ =>
      obtain ⟨rfl, -⟩ := List.cons.inj (List.cons.inj heq).2
      exact absurd he Escape.ne_u
  | @unicode h₁ h₂ h₃ h₄ n₁ n₂ n₃ n₄ code v d v₁ v₂ v₃ v₄ hcode _ _ ih =>
    intro v' d' r r' h' heq
    cases h' with
    | nil => exact absurd (List.cons.inj heq).1 (by decide)
    | plain _ _ hbackslash _ => exact absurd (List.cons.inj heq).1.symm hbackslash
    | escape he' _ =>
      obtain ⟨rfl, -⟩ := List.cons.inj (List.cons.inj heq).2
      exact absurd he' Escape.ne_u
    | unicode v₁' v₂' v₃' v₄' hcode' _ h' =>
      simp only [List.cons_append, List.cons.injEq, true_and] at heq
      obtain ⟨rfl, rfl, rfl, rfl, hrest⟩ := heq
      obtain ⟨rfl, rfl, rfl⟩ := ih h' hrest
      -- the digits are the same, and so is the code
      obtain rfl := Option.some.inj (v₁.symm.trans v₁')
      obtain rfl := Option.some.inj (v₂.symm.trans v₂')
      obtain rfl := Option.some.inj (v₃.symm.trans v₃')
      obtain rfl := Option.some.inj (v₄.symm.trans v₄')
      exact ⟨rfl, by rw [← hcode, ← hcode'], rfl⟩

/-- Two literals in front of one text are the same. -/
theorem StringLit.unique {v v' d d' r r' : Bytes} (h : StringLit v d) (h' : StringLit v' d')
    (heq : v ++ r = v' ++ r') : v = v' ∧ d = d' ∧ r = r' := by
  obtain ⟨body, rfl, hbody⟩ := h
  obtain ⟨body', rfl, hbody'⟩ := h'
  simp only [List.cons_append, List.append_assoc, List.nil_append, List.cons.injEq, true_and] at heq
  obtain ⟨rfl, rfl, rfl⟩ := hbody.unique hbody' heq
  exact ⟨rfl, rfl, rfl⟩

/-- White space in front of a visible byte, and the same byte without. -/
theorem Ws.eq_nil {w r r' : Bytes} {ch ch' : UInt8} (hw : Ws w) (hch : isspace ch' = false)
    (heq : w ++ ch :: r = ch' :: r') : w = [] ∧ ch = ch' ∧ r = r' := by
  cases w with
  | nil => exact ⟨rfl, (List.cons.inj heq).1, (List.cons.inj heq).2⟩
  | cons c w =>
    obtain ⟨rfl, -⟩ := List.cons.inj heq
    exact absurd (hw c (by simp)) (by simp [hch])

/-- A value in front of a quote is a string. -/
theorem Bound.stringLit {v x r r' : Bytes} (h : Bound v x) (heq : v ++ r = quote :: r') :
    StringLit v x := by
  cases h with
  | string hs => exact hs
  | bare hb =>
    obtain ⟨ch, rest, rfl, hch⟩ := hb.bare_head
    obtain ⟨rfl, -⟩ := List.cons.inj heq
    exact absurd hch (by decide)

/-! ### Members -/

variable {k K key key' w₁ w₂ w v x V X ms q r raw rest : Bytes} {bs : List (Bytes × Bytes)}

/-- Up to its value, a member is what the text begins with. -/
theorem member_front (hk : StringLit k key) (hw₁ : Ws w₁) (hw₂ : Ws w₂) (hv : Bound v x)
    (hK : StringLit K key') {ch : UInt8} (hch : isspace ch = false)
    (heq : k ++ w₁ ++ colon :: w₂ ++ v ++ r = K ++ colon :: ch :: q) :
    key = key' ∧ v ++ r = ch :: q := by
  have heq' : k ++ (w₁ ++ colon :: (w₂ ++ (v ++ r))) = K ++ colon :: ch :: q := by
    simpa using heq
  obtain ⟨-, rfl, hrest⟩ := hk.unique hK heq'
  obtain ⟨-, -, hrest⟩ := hw₁.eq_nil (by decide) hrest
  obtain ⟨c, cs, rfl, -⟩ := bound_head hv
  obtain ⟨-, rfl, rfl⟩ := hw₂.eq_nil hch hrest
  exact ⟨rfl, rfl⟩

/-- A string member in front of a comma is the first binding, and the other members follow. -/
theorem Bindings.of_string_member (h : Bindings ms bs) (hK : StringLit K key') (hV : StringLit V X)
    (hrest : rest.head? = some quote)
    (heq : ms ++ rbrace :: w = K ++ colon :: V ++ comma :: rest) :
    ∃ ms' bs', bs = (key', X) :: bs' ∧ Bindings ms' bs' ∧ ms' ++ rbrace :: w = rest := by
  obtain ⟨V', rfl⟩ := hV.head
  obtain ⟨rest', rfl⟩ := List.head?_eq_some_iff.mp hrest
  cases h with
  | @last k key w₁ w₂ v x w₃ hk hw₁ hw₂ hv hw₃ =>
    obtain ⟨rfl, hvalue⟩ := member_front (r := w₃ ++ rbrace :: w) hk hw₁ hw₂ hv hK
      (show isspace quote = false by decide) (by simpa using heq)
    obtain ⟨-, rfl, hend⟩ := (hv.stringLit hvalue).unique hV hvalue
    exact absurd (hw₃.eq_nil (by decide) hend).2.1 (by decide)
  | @cons k key w₁ w₂ v x w₃ w₄ ms' bs' hk hw₁ hw₂ hv hw₃ hw₄ hms' =>
    obtain ⟨rfl, hvalue⟩ := member_front (r := w₃ ++ comma :: (w₄ ++ (ms' ++ rbrace :: w))) hk hw₁
      hw₂ hv hK (show isspace quote = false by decide) (by simpa using heq)
    obtain ⟨-, rfl, hend⟩ := (hv.stringLit hvalue).unique hV hvalue
    obtain ⟨-, -, hnext⟩ := hw₃.eq_nil (by decide) hend
    obtain ⟨ms'', rfl⟩ := bindings_head hms'
    obtain ⟨-, -, hnext⟩ := hw₄.eq_nil (by decide) hnext
    exact ⟨_, bs', rfl, hms', congrArg (quote :: ·) hnext⟩

/-- Behind the colon of a field stand bytes that begin with a brace, and then the closing brace of the
text: they are one object and white space, or the field is not the last one. -/
theorem Bindings.of_last_field (h : Bindings ms bs) (hw : Ws w) (hK : StringLit K key')
    (hraw : raw.head? = some lbrace)
    (heq : ms ++ rbrace :: w = K ++ colon :: raw ++ [rbrace]) :
    (∃ v w', bs = [(key', v)] ∧ raw = v ++ w' ∧ Derives .bare v ∧ Ws w') ∨
      ∃ y b bs', bs = (key', y) :: b :: bs' := by
  obtain ⟨raw', rfl⟩ := List.head?_eq_some_iff.mp hraw
  cases h with
  | @last k key w₁ w₂ v x w₃ hk hw₁ hw₂ hv hw₃ =>
    obtain ⟨rfl, hvalue⟩ := member_front (r := w₃ ++ rbrace :: w) (q := raw' ++ [rbrace]) hk hw₁ hw₂
      hv hK (show isspace lbrace = false by decide) (by simpa using heq)
    have hbare : Derives .bare v ∧ v = x := by
      cases hv with
      | bare hb => exact ⟨hb, rfl⟩
      | string hs =>
        obtain ⟨v', rfl⟩ := hs.head
        exact absurd (List.cons.inj hvalue).1 (by decide)
    obtain ⟨hb, rfl⟩ := hbare
    rcases List.eq_nil_or_concat w with rfl | ⟨w', c, rfl⟩
    · have hraw : (v ++ w₃) ++ [rbrace] = (lbrace :: raw') ++ [rbrace] := by simpa using hvalue
      exact .inl ⟨v, w₃, rfl, (List.append_cancel_right hraw).symm, hb, hw₃⟩
    · -- a last byte behind the brace would be white space
      have hlast : (v ++ (w₃ ++ rbrace :: w')) ++ [c] = (lbrace :: raw') ++ [rbrace] := by
        simpa using hvalue
      obtain ⟨-, hc⟩ := List.append_inj' hlast rfl
      obtain rfl : c = rbrace := by simpa using hc
      exact absurd (hw rbrace (by simp)) (by decide)
  | @cons k key w₁ w₂ v x w₃ w₄ ms' bs' hk hw₁ hw₂ hv hw₃ hw₄ hms' =>
    obtain ⟨rfl, -⟩ := member_front (r := w₃ ++ comma :: (w₄ ++ (ms' ++ rbrace :: w)))
      (q := raw' ++ [rbrace]) hk hw₁ hw₂ hv hK (show isspace lbrace = false by decide)
      (by simpa using heq)
    cases hms' with
    | last _ _ _ _ _ => exact .inr ⟨_, _, _, rfl⟩
    | cons _ _ _ _ _ _ _ => exact .inr ⟨_, _, _, rfl⟩

/-- An object that begins with a member. -/
theorem Text.of_member (h : Text v bs) (hrest : rest.head? = some quote)
    (heq : v = lbrace :: rest) : ∃ ms w, Bindings ms bs ∧ Ws w ∧ ms ++ rbrace :: w = rest := by
  obtain ⟨rest', rfl⟩ := List.head?_eq_some_iff.mp hrest
  cases h with
  | @empty w₁ w w₂ hw₁ hw hw₂ =>
    obtain ⟨-, -, hclose⟩ := hw₁.eq_nil (r := w ++ rbrace :: w₂)
      (show isspace lbrace = false by decide) (by simpa using heq)
    exact absurd (hw.eq_nil (by decide) hclose).2.1 (by decide)
  | @members w₁ w ms bs w₂ hw₁ hw hms hw₂ =>
    obtain ⟨-, -, hopen⟩ := hw₁.eq_nil (r := w ++ (ms ++ rbrace :: w₂))
      (show isspace lbrace = false by decide) (by simpa using heq)
    obtain ⟨ms', rfl⟩ := bindings_head hms
    obtain ⟨-, -, hnext⟩ := hw.eq_nil (by decide) hopen
    exact ⟨_, w₂, hms, hw₂, congrArg (quote :: ·) hnext⟩

end ChatService.JsonGrammar
