import ChatService.Common.JsonLanguage
import ChatService.Common.JsonPrefix
import ChatService.Common.Numbers

/-!
# Arrays and the texts of their elements

`parseJsonObject` binds an array to its own text; a reader that wants the elements takes it apart.
`ArrayText raw texts` says what it finds: the texts of the elements in order.

* `Derives.value_unique` — a value ends where the next byte is none of its own.
* `ArrayText.unique` — an array has one list of elements.
* `arrayText_intercalate` — values that are written with commas between them.
-/

namespace ChatService.JsonGrammar

open Byte

/-- Elements with the texts they are made of, as in `Derives`. -/
inductive Elements : Bytes → List Bytes → Prop
  | last {v w} : Derives .value v → Ws w → Elements (v ++ w) [v]
  | cons {v w w' es vs} : Derives .value v → Ws w → Ws w' → Elements es vs →
      Elements (v ++ w ++ comma :: w' ++ es) (v :: vs)

/-- An array and the texts of its elements. -/
inductive ArrayText : Bytes → List Bytes → Prop
  | empty {w} : Ws w → ArrayText (lbracket :: w ++ [rbracket]) []
  | elements {w es vs} : Ws w → Elements es vs → ArrayText (lbracket :: w ++ es ++ [rbracket]) vs

theorem Elements.derives {es : Bytes} {vs : List Bytes} (h : Elements es vs) :
    Derives .elements es := by
  induction h with
  | last hv hw => exact .lastElement hv hw
  | cons hv hw hw' _ ih => exact .consElement hv hw hw' ih

theorem ArrayText.derives {raw : Bytes} {texts : List Bytes} (h : ArrayText raw texts) :
    Derives .bare raw := by
  cases h with
  | empty hw => exact .emptyArray hw
  | elements hw hes => exact .array hw hes.derives

/-! ### One reading only -/

/-- White space ends at a visible byte. -/
theorem Ws.unique {w w' r r' : Bytes} {ch ch' : UInt8} (hw : Ws w) (hw' : Ws w')
    (hch : isspace ch = false) (hch' : isspace ch' = false) (heq : w ++ ch :: r = w' ++ ch' :: r') :
    w = w' ∧ ch = ch' ∧ r = r' := by
  induction w generalizing w' with
  | nil =>
    obtain ⟨rfl, rfl, rfl⟩ := hw'.eq_nil hch heq.symm
    exact ⟨rfl, rfl, rfl⟩
  | cons c w ih =>
    cases w' with
    | nil =>
      obtain ⟨rfl, -⟩ := List.cons.inj heq
      exact absurd (hw c List.mem_cons_self) (by simp [hch'])
    | cons c' w' =>
      obtain ⟨rfl, hrest⟩ := List.cons.inj heq
      obtain ⟨rfl, rfl, rfl⟩ := ih (fun b hb => hw b (List.mem_cons_of_mem _ hb))
        (fun b hb => hw' b (List.mem_cons_of_mem _ hb)) hrest
      exact ⟨rfl, rfl, rfl⟩

/-- What stands behind a value and continues no number. -/
def EndsValue (r : Bytes) : Prop := ∀ ch, r.head? = some ch → endsNumber ch = true

theorem endsValue_append {w r : Bytes} {ch : UInt8} (hw : Ws w) (hch : endsNumber ch = true) :
    EndsValue (w ++ ch :: r) := by
  intro c hc
  cases w with
  | nil =>
    obtain rfl : ch = c := by simpa using hc
    exact hch
  | cons s w =>
    obtain rfl : s = c := by simpa using hc
    exact endsNumber_of_isspace (hw s List.mem_cons_self)

/-- **A value ends in one place.**  The scanner of nested values goes over both readings, so they are as
long as each other. -/
theorem Derives.value_unique {v v' r r' : Bytes} (h : Derives .value v) (h' : Derives .value v')
    (hr : EndsValue r) (hr' : EndsValue r') (heq : v ++ r = v' ++ r') : v = v' ∧ r = r' := by
  have hscan : ∀ {u q : Bytes}, Derives .value u → EndsValue q → v ++ r = u ++ q →
      consumeJsonValue (v ++ r) (3 * (v ++ r).length + 1) 0 = .ok () u.length := by
    intro u q hu hq htext
    have hconsumes : Consumes (v ++ r) 0 u.length u := by
      have hdrop : (v ++ r).drop 0 = u ++ q := by rw [List.drop_zero, htext]
      simpa using Consumes.of_drop_eq hdrop
    refine hu.completes hconsumes (fun ch hch => hq ch ?_) ?_
    · rw [htext, List.getElem?_append_right le_rfl, Nat.sub_self] at hch
      rw [List.head?_eq_getElem?]
      exact hch
    · rw [htext, List.length_append]
      omega
  have hlength : v.length = v'.length := by
    have hboth := (hscan h hr rfl).symm.trans (hscan h' hr' heq)
    simpa using hboth
  exact List.append_inj heq hlength

theorem Elements.head {es : Bytes} {vs : List Bytes} (h : Elements es vs) :
    ∃ ch rest, es = ch :: rest ∧ isspace ch = false ∧ ch ≠ rbracket := elements_head h.derives

/-- Elements in front of the closing bracket have one reading. -/
theorem Elements.unique {es : Bytes} {vs : List Bytes} (h : Elements es vs) :
    ∀ {es' : Bytes} {vs' : List Bytes}, Elements es' vs' → es ++ [rbracket] = es' ++ [rbracket] →
      vs = vs' := by
  have hbracket : endsNumber rbracket = true ∧ isspace rbracket = false := by decide
  have hcomma : endsNumber comma = true ∧ isspace comma = false := by decide
  induction h with
  | @last v w hv hw =>
    intro es' vs' h' heq
    cases h' with
    | @last v' w' hv' hw' =>
      obtain ⟨rfl, -⟩ := hv.value_unique hv' (endsValue_append hw hbracket.1)
        (endsValue_append hw' hbracket.1) (by simpa using heq)
      rfl
    | @cons v' w' w'' es' vs' hv' hw' hw'' hes' =>
      obtain ⟨-, hrest⟩ := hv.value_unique hv' (endsValue_append hw hbracket.1)
        (endsValue_append (r := w'' ++ (es' ++ [rbracket])) hw' hcomma.1) (by simpa using heq)
      exact absurd (hw.unique hw' hbracket.2 hcomma.2 hrest).2.1 (by decide)
  | @cons v w₁ w₂ es vs hv hw₁ hw₂ hes ih =>
    intro es' vs' h' heq
    cases h' with
    | @last v' w' hv' hw' =>
      obtain ⟨-, hrest⟩ := hv.value_unique hv'
        (endsValue_append (r := w₂ ++ (es ++ [rbracket])) hw₁ hcomma.1)
        (endsValue_append hw' hbracket.1) (by simpa using heq)
      exact absurd (hw₁.unique hw' hcomma.2 hbracket.2 hrest).2.1 (by decide)
    | @cons v' w₁' w₂' es' vs' hv' hw₁' hw₂' hes' =>
      obtain ⟨rfl, hrest⟩ := hv.value_unique hv'
        (endsValue_append (r := w₂ ++ (es ++ [rbracket])) hw₁ hcomma.1)
        (endsValue_append (r := w₂' ++ (es' ++ [rbracket])) hw₁' hcomma.1) (by simpa using heq)
      obtain ⟨-, -, hnext⟩ := hw₁.unique hw₁' hcomma.2 hcomma.2 hrest
      obtain ⟨c, rest, rfl, hc, -⟩ := hes.head
      obtain ⟨c', rest', rfl, hc', -⟩ := hes'.head
      obtain ⟨-, rfl, htail⟩ := hw₂.unique hw₂' hc hc' hnext
      rw [ih hes' (congrArg (c :: ·) htail)]

/-- **An array has one list of elements.** -/
theorem ArrayText.unique {raw : Bytes} {texts texts' : List Bytes} (h : ArrayText raw texts)
    (h' : ArrayText raw texts') : texts = texts' := by
  have hbracket : isspace rbracket = false := by decide
  generalize hraw : raw = raw' at h'
  cases h with
  | @empty w hw =>
    cases h' with
    | empty hw' => rfl
    | @elements w' es' vs' hw' hes' =>
      obtain ⟨c, rest, rfl, hc, hne⟩ := hes'.head
      have heq : w ++ rbracket :: [] = w' ++ c :: (rest ++ [rbracket]) := by simpa using hraw
      exact absurd (hw.unique hw' hbracket hc heq).2.1.symm hne
  | @elements w es vs hw hes =>
    cases h' with
    | @empty w' hw' =>
      obtain ⟨c, rest, rfl, hc, hne⟩ := hes.head
      have heq : w ++ c :: (rest ++ [rbracket]) = w' ++ rbracket :: [] := by simpa using hraw
      exact absurd (hw.unique hw' hc hbracket heq).2.1 hne
    | @elements w' es' vs' hw' hes' =>
      obtain ⟨c, rest, rfl, hc, -⟩ := hes.head
      obtain ⟨c', rest', rfl, hc', -⟩ := hes'.head
      have heq : w ++ c :: (rest ++ [rbracket]) = w' ++ c' :: (rest' ++ [rbracket]) := by
        simpa using hraw
      obtain ⟨-, rfl, htail⟩ := hw.unique hw' hc hc' heq
      exact hes.unique hes' (congrArg (c :: ·) htail)

/-! ### Arrays that are written -/

/-- Values with a comma and white space between them. -/
theorem elements_intercalate {w' w'' : Bytes} (hw' : Ws w') (hw'' : Ws w'') {texts : List Bytes}
    (hne : texts ≠ []) (hvalues : ∀ v ∈ texts, Derives .value v) :
    Elements (List.intercalate (comma :: w') texts ++ w'') texts := by
  induction texts with
  | nil => exact absurd rfl hne
  | cons v texts ih =>
    have hv := hvalues v List.mem_cons_self
    cases texts with
    | nil => simpa [List.intercalate] using Elements.last hv hw''
    | cons u texts =>
      have hrest := ih (by simp) fun x hx => hvalues x (List.mem_cons_of_mem _ hx)
      simpa [List.intercalate] using Elements.cons hv Ws.nil hw' hrest

/-- The whole array; an empty one may have any white space in it. -/
theorem arrayText_intercalate {w w' w'' : Bytes} (hw : Ws w) (hw' : Ws w') (hw'' : Ws w'')
    {texts : List Bytes} (hvalues : ∀ v ∈ texts, Derives .value v) :
    ArrayText (lbracket :: w ++ (List.intercalate (comma :: w') texts ++ w'') ++ [rbracket]) texts := by
  cases texts with
  | nil => simpa [List.intercalate] using ArrayText.empty (hw.append hw'')
  | cons v texts => exact .elements hw (elements_intercalate hw' hw'' (by simp) hvalues)

/-! ### Objects that are written field by field -/

/-- A field: its key, the text of its value, and what the value is bound as. -/
structure Field where
  key : Bytes
  text : Bytes
  value : Bytes
  bound : Bound text value

/-- A text field, escaped and quoted. -/
def Field.string (key value : Bytes) : Field :=
  ⟨key, quote :: escapeJsonString value ++ [quote], value, .string (stringLit_escapeJsonString value)⟩

/-- A field that holds a number. -/
def Field.int (key : Bytes) (value : ℤ) : Field :=
  ⟨key, int64ToString value, int64ToString value, .bare (.number (number_int64ToString value))⟩

def Field.line (field : Field) : Bytes :=
  quote :: escapeJsonString field.key ++ [quote] ++ colon :: field.text

/-- The fields with commas between them, in braces. -/
def objectText (fields : List Field) : Bytes :=
  lbrace :: List.intercalate [comma] (fields.map Field.line) ++ [rbrace]

theorem bindings_intercalate {fields : List Field} (hne : fields ≠ []) :
    Bindings (List.intercalate [comma] (fields.map Field.line))
      (fields.map fun field => (field.key, field.value)) := by
  induction fields with
  | nil => exact absurd rfl hne
  | cons field fields ih =>
    have hkey := stringLit_escapeJsonString field.key
    cases fields with
    | nil =>
      have hlast := Bindings.last hkey Ws.nil Ws.nil field.bound Ws.nil
      simpa [List.intercalate, Field.line] using hlast
    | cons field' fields =>
      have hcons := Bindings.cons hkey Ws.nil Ws.nil field.bound Ws.nil Ws.nil (ih (by simp))
      simpa [Field.line] using hcons

/-- The members of a top-level object may stand in a nested one. -/
theorem Bindings.derives {ms : Bytes} {bs : List (Bytes × Bytes)} (h : Bindings ms bs) :
    Derives .members ms := by
  induction h with
  | last hk hw₁ hw₂ hv hw₃ => exact .lastMember hk hw₁ hw₂ hv.derives hw₃
  | cons hk hw₁ hw₂ hv hw₃ hw₄ _ ih => exact .consMember hk hw₁ hw₂ hv.derives hw₃ hw₄ ih

/-- An object that is written field by field is read as it was written. -/
theorem parse_objectText (fields : List Field) :
    parseJsonObject (objectText fields) =
      .ok (JsonObject.bindAll ∅ (fields.map fun field => (field.key, field.value)))
        (objectText fields).length := by
  refine parseJsonObject_complete ?_
  cases fields with
  | nil => exact .empty Ws.nil Ws.nil Ws.nil
  | cons field fields =>
    have hms := bindings_intercalate (List.cons_ne_nil field fields)
    simpa [objectText] using Text.members Ws.nil Ws.nil hms Ws.nil

theorem derives_objectText (fields : List Field) : Derives .value (objectText fields) := by
  cases fields with
  | nil => exact .ofBare (.emptyObject Ws.nil)
  | cons field fields =>
    have hms := bindings_intercalate (List.cons_ne_nil field fields)
    have hobject := Derives.object Ws.nil hms.derives
    exact .ofBare (by simpa [objectText] using hobject)

end ChatService.JsonGrammar
