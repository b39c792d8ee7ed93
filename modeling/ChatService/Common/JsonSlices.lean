import ChatService.Common.JsonArray

/-!
# Raw slices stand for themselves

`parseJsonObject` binds a value that is no string to its slice of the text.  `ObjectFields text fields` says
which fields a text is made of, each with its key, its slice and what it is bound to; a text has one such list
(`ObjectFields.unique`).  A slice may be taken out of the text and put into another one: it is read there as it
was read before (`raw_slices_self_contained`).
-/

namespace ChatService.JsonGrammar

open Byte

/-! ### The fields of a text -/

/-- Members with the fields that they are, as in `Bindings`. -/
inductive Members : Bytes → List Field → Prop
  | last {k w₁ w₂ w₃ field} : StringLit k field.key → Ws w₁ → Ws w₂ → Ws w₃ →
      Members (k ++ w₁ ++ colon :: w₂ ++ field.text ++ w₃) [field]
  | cons {k w₁ w₂ w₃ w₄ ms field fields} : StringLit k field.key → Ws w₁ → Ws w₂ → Ws w₃ → Ws w₄ →
      Members ms fields →
      Members (k ++ w₁ ++ colon :: w₂ ++ field.text ++ w₃ ++ comma :: w₄ ++ ms) (field :: fields)

/-- A whole text, as in `Text`. -/
inductive ObjectFields : Bytes → List Field → Prop
  | empty {w₁ w w₂} : Ws w₁ → Ws w → Ws w₂ → ObjectFields (w₁ ++ lbrace :: w ++ rbrace :: w₂) []
  | members {w₁ w ms w₂ fields} : Ws w₁ → Ws w → Members ms fields → Ws w₂ →
      ObjectFields (w₁ ++ lbrace :: w ++ ms ++ rbrace :: w₂) fields

/-- The last field with this key. -/
def lastField (fields : List Field) (key : Bytes) : Option Field := fields.reverse.find? fun field => field.key = key

def Field.binding (field : Field) : Bytes × Bytes := (field.key, field.value)

theorem Members.bindings {ms : Bytes} {fields : List Field} (h : Members ms fields) :
    Bindings ms (fields.map Field.binding) := by
  induction h with
  | @last k w₁ w₂ w₃ field hk hw₁ hw₂ hw₃ => exact .last hk hw₁ hw₂ field.bound hw₃
  | @cons k w₁ w₂ w₃ w₄ ms field fields hk hw₁ hw₂ hw₃ hw₄ _ ih => exact .cons hk hw₁ hw₂ field.bound hw₃ hw₄ ih

theorem Bindings.members {ms : Bytes} {bs : List (Bytes × Bytes)} (h : Bindings ms bs) :
    ∃ fields, Members ms fields ∧ fields.map Field.binding = bs := by
  induction h with
  | @last k key w₁ w₂ v x w₃ hk hw₁ hw₂ hv hw₃ =>
    have hlast : Members _ [⟨key, v, x, hv⟩] := .last hk hw₁ hw₂ hw₃
    exact ⟨_, hlast, rfl⟩
  | @cons k key w₁ w₂ v x w₃ w₄ ms bs hk hw₁ hw₂ hv hw₃ hw₄ _ ih =>
    obtain ⟨fields, hfields, rfl⟩ := ih
    have hcons : Members _ (⟨key, v, x, hv⟩ :: fields) := .cons hk hw₁ hw₂ hw₃ hw₄ hfields
    exact ⟨_, hcons, rfl⟩

/-- **What is accepted has fields**, and they are what the map binds. -/
theorem exists_objectFields {text : Bytes} {object : JsonObject} {pos : ℕ} (h : parseJsonObject text = .ok object pos) :
    ∃ fields, ObjectFields text fields ∧ object = JsonObject.bindAll ∅ (fields.map Field.binding) := by
  obtain ⟨bs, htext, hobject⟩ := parseJsonObject_sound h
  cases htext with
  | empty hw₁ hw hw₂ => exact ⟨[], .empty hw₁ hw hw₂, hobject⟩
  | members hw₁ hw hms hw₂ =>
    obtain ⟨fields, hfields, rfl⟩ := hms.members
    exact ⟨fields, .members hw₁ hw hfields hw₂, hobject⟩

/-! ### One list of fields -/

/-- A slice is bound to one value. -/
theorem Bound.unique {v x x' : Bytes} (h : Bound v x) (h' : Bound v x') : x = x' := by
  cases h with
  | string hs =>
    obtain ⟨rest, hquote⟩ := hs.head
    have hsame : v ++ ([] : Bytes) = v ++ [] := rfl
    have heq : v ++ [] = quote :: rest := by rw [List.append_nil, hquote]
    exact (hs.unique (h'.stringLit heq) hsame).2.1
  | bare hb =>
    cases h' with
    | bare _ => rfl
    | string hs =>
      obtain ⟨rest, hquote⟩ := hs.head
      obtain ⟨ch, _, hcons, hch⟩ := hb.bare_head
      obtain ⟨rfl, -⟩ := List.cons.inj (hquote.symm.trans hcons)
      exact absurd hch (by decide)

theorem Field.eq_of_text {field field' : Field} (hkey : field.key = field'.key) (htext : field.text = field'.text) :
    field = field' := by
  obtain ⟨key, text, value, hbound⟩ := field
  obtain ⟨key', text', value', hbound'⟩ := field'
  obtain rfl : key = key' := hkey
  obtain rfl : text = text' := htext
  obtain rfl := hbound.unique hbound'
  rfl

theorem Members.head {ms : Bytes} {fields : List Field} (h : Members ms fields) : ∃ rest, ms = quote :: rest :=
  members_head h.bindings.derives

/-- A member in front of a comma or a brace has one reading. -/
theorem member_unique {k k' w₁ w₁' w₂ w₂' w₃ w₃' r s : Bytes} {ch ch' : UInt8} {field field' : Field}
    (hk : StringLit k field.key) (hk' : StringLit k' field'.key) (hw₁ : Ws w₁) (hw₁' : Ws w₁') (hw₂ : Ws w₂)
    (hw₂' : Ws w₂') (hw₃ : Ws w₃) (hw₃' : Ws w₃') (hch : endsNumber ch = true ∧ isspace ch = false)
    (hch' : endsNumber ch' = true ∧ isspace ch' = false)
    (heq : k ++ (w₁ ++ colon :: (w₂ ++ (field.text ++ (w₃ ++ ch :: r)))) =
      k' ++ (w₁' ++ colon :: (w₂' ++ (field'.text ++ (w₃' ++ ch' :: s))))) :
    field = field' ∧ ch = ch' ∧ r = s := by
  have hcolon : isspace colon = false := by decide
  obtain ⟨-, hkey, hrest⟩ := hk.unique hk' heq
  obtain ⟨-, -, hrest⟩ := hw₁.unique hw₁' hcolon hcolon hrest
  obtain ⟨c, cs, htext, hc⟩ := bound_head field.bound
  obtain ⟨c', cs', htext', hc'⟩ := bound_head field'.bound
  rw [htext, htext', List.cons_append, List.cons_append] at hrest
  obtain ⟨-, hfirst, htail⟩ := hw₂.unique hw₂' hc hc' hrest
  have hvalue : field.text ++ (w₃ ++ ch :: r) = field'.text ++ (w₃' ++ ch' :: s) := by
    rw [htext, htext', hfirst, List.cons_append, List.cons_append, htail]
  obtain ⟨hsame, hend⟩ := field.bound.derives.value_unique field'.bound.derives
    (endsValue_append hw₃ hch.1) (endsValue_append hw₃' hch'.1) hvalue
  obtain ⟨-, hnext, hafter⟩ := hw₃.unique hw₃' hch.2 hch'.2 hend
  exact ⟨Field.eq_of_text hkey hsame, hnext, hafter⟩

/-- Members in front of the closing brace have one reading. -/
theorem Members.unique {ms : Bytes} {fields : List Field} (h : Members ms fields) :
    ∀ {ms' w w' : Bytes} {fields' : List Field}, Members ms' fields' →
      ms ++ rbrace :: w = ms' ++ rbrace :: w' → fields = fields' := by
  have hbrace : endsNumber rbrace = true ∧ isspace rbrace = false := by decide
  have hcomma : endsNumber comma = true ∧ isspace comma = false := by decide
  induction h with
  | @last k w₁ w₂ w₃ field hk hw₁ hw₂ hw₃ =>
    intro ms' w w' fields' h' heq
    cases h' with
    | @last k' w₁' w₂' w₃' field' hk' hw₁' hw₂' hw₃' =>
      obtain ⟨rfl, -⟩ := member_unique (r := w) (s := w') hk hk' hw₁ hw₁' hw₂ hw₂' hw₃ hw₃' hbrace hbrace
        (by simpa using heq)
      rfl
    | @cons k' w₁' w₂' w₃' w₄' ms' field' fields' hk' hw₁' hw₂' hw₃' hw₄' _ =>
      have hnext := (member_unique (r := w) (s := w₄' ++ (ms' ++ rbrace :: w')) hk hk' hw₁ hw₁' hw₂ hw₂' hw₃ hw₃'
        hbrace hcomma (by simpa using heq)).2.1
      exact absurd hnext (by decide)
  | @cons k w₁ w₂ w₃ w₄ ms field fields hk hw₁ hw₂ hw₃ hw₄ hms ih =>
    intro ms' w w' fields' h' heq
    cases h' with
    | @last k' w₁' w₂' w₃' field' hk' hw₁' hw₂' hw₃' =>
      have hnext := (member_unique (r := w₄ ++ (ms ++ rbrace :: w)) (s := w') hk hk' hw₁ hw₁' hw₂ hw₂' hw₃ hw₃'
        hcomma hbrace (by simpa using heq)).2.1
      exact absurd hnext (by decide)
    | @cons k' w₁' w₂' w₃' w₄' ms' field' fields' hk' hw₁' hw₂' hw₃' hw₄' hms' =>
      obtain ⟨rfl, -, hrest⟩ := member_unique (r := w₄ ++ (ms ++ rbrace :: w)) (s := w₄' ++ (ms' ++ rbrace :: w'))
        hk hk' hw₁ hw₁' hw₂ hw₂' hw₃ hw₃' hcomma hcomma (by simpa using heq)
      obtain ⟨rest, rfl⟩ := hms.head
      obtain ⟨rest', rfl⟩ := hms'.head
      have hquote : isspace quote = false := by decide
      obtain ⟨-, -, hnext⟩ := hw₄.unique hw₄' hquote hquote hrest
      rw [ih hms' (congrArg (quote :: ·) hnext)]

/-- **A text has one list of fields.** -/
theorem ObjectFields.unique {text : Bytes} {fields fields' : List Field} (h : ObjectFields text fields)
    (h' : ObjectFields text fields') : fields = fields' := by
  have hlbrace : isspace lbrace = false := by decide
  have hrbrace : isspace rbrace = false := by decide
  have hquote : isspace quote = false := by decide
  generalize htext : text = text' at h'
  cases h with
  | @empty w₁ w w₂ hw₁ hw hw₂ =>
    cases h' with
    | empty _ _ _ => rfl
    | @members w₁' w' ms' w₂' fields' hw₁' hw' hms' hw₂' =>
      obtain ⟨rest, rfl⟩ := hms'.head
      have hwhole : w₁ ++ lbrace :: (w ++ rbrace :: w₂) =
          w₁' ++ lbrace :: (w' ++ quote :: (rest ++ rbrace :: w₂')) := by
        simpa using htext
      obtain ⟨-, -, hopen⟩ := hw₁.unique hw₁' hlbrace hlbrace hwhole
      exact absurd (hw.unique hw' hrbrace hquote hopen).2.1 (by decide)
  | @members w₁ w ms w₂ fields hw₁ hw hms hw₂ =>
    obtain ⟨rest, rfl⟩ := hms.head
    cases h' with
    | @empty w₁' w' w₂' hw₁' hw' hw₂' =>
      have hwhole : w₁ ++ lbrace :: (w ++ quote :: (rest ++ rbrace :: w₂)) =
          w₁' ++ lbrace :: (w' ++ rbrace :: w₂') := by
        simpa using htext
      obtain ⟨-, -, hopen⟩ := hw₁.unique hw₁' hlbrace hlbrace hwhole
      exact absurd (hw.unique hw' hquote hrbrace hopen).2.1 (by decide)
    | @members w₁' w' ms' w₂' fields' hw₁' hw' hms' hw₂' =>
      obtain ⟨rest', rfl⟩ := hms'.head
      have hwhole : w₁ ++ lbrace :: (w ++ quote :: (rest ++ rbrace :: w₂)) =
          w₁' ++ lbrace :: (w' ++ quote :: (rest' ++ rbrace :: w₂')) := by
        simpa using htext
      obtain ⟨-, -, hopen⟩ := hw₁.unique hw₁' hlbrace hlbrace hwhole
      obtain ⟨-, -, hnext⟩ := hw.unique hw' hquote hquote hopen
      exact hms.unique hms' (congrArg (quote :: ·) hnext)

/-! ### Slices -/

/-- The last field is what the map binds its key to. -/
theorem getElem?_bindAll_lastField (fields : List Field) (key : Bytes) :
    (JsonObject.bindAll ∅ (fields.map Field.binding))[key]? = (lastField fields key).map Field.value := by
  have hlookup : ∀ fields : List Field, (fields.map Field.binding).lookup key =
      (fields.find? fun field => field.key = key).map Field.value := by
    intro fields
    induction fields with
    | nil => rfl
    | cons field fields ih =>
      rw [List.map_cons, Field.binding, List.lookup_cons, List.find?_cons, ih]
      by_cases hkey : field.key = key
      · rw [hkey, beq_self_eq_true, decide_eq_true rfl]
        rfl
      · rw [beq_eq_false_iff_ne.mpr (Ne.symm hkey), decide_eq_false hkey]
  rw [JsonObject.getElem?_bindAll, lastBinding, ← List.map_reverse, hlookup, lastField]
  simp

/-- A field that does not begin with a quote is bound to its slice. -/
theorem Field.bare_of_head {field : Field} (h : field.text.head? ≠ some quote) :
    field.value = field.text ∧ Derives .bare field.text := by
  obtain ⟨key, text, value, hbound⟩ := field
  cases hbound with
  | string hs =>
    obtain ⟨rest, rfl⟩ := hs.head
    exact absurd rfl h
  | bare hb => exact ⟨rfl, hb⟩

/-- What is written field by field is made of these fields. -/
theorem members_intercalate {fields : List Field} (hne : fields ≠ []) :
    Members (List.intercalate [comma] (fields.map Field.line)) fields := by
  induction fields with
  | nil => exact absurd rfl hne
  | cons field fields ih =>
    have hkey := stringLit_escapeJsonString field.key
    cases fields with
    | nil =>
      have hlast : Members _ [field] := .last hkey Ws.nil Ws.nil Ws.nil
      simpa [List.intercalate, Field.line] using hlast
    | cons field' fields =>
      have hcons : Members _ (field :: field' :: fields) :=
        .cons hkey Ws.nil Ws.nil Ws.nil Ws.nil (ih (by simp))
      simpa [Field.line] using hcons

theorem objectFields_objectText (fields : List Field) : ObjectFields (objectText fields) fields := by
  cases fields with
  | nil => exact .empty Ws.nil Ws.nil Ws.nil
  | cons field fields =>
    have hms := members_intercalate (List.cons_ne_nil field fields)
    simpa [objectText] using ObjectFields.members Ws.nil Ws.nil hms Ws.nil

/-- The object with one field. -/
def singleText (k v : Bytes) : Bytes := lbrace :: quote :: escapeJsonString k ++ quote :: colon :: v ++ [rbrace]

/-- A value that is no string may be put behind any key. -/
theorem parse_singleText {v : Bytes} (h : Derives .bare v) (k : Bytes) :
    parseJsonObject (singleText k v) = .ok ((∅ : JsonObject).insert k v) (singleText k v).length := by
  have htext : objectText [⟨k, v, v, .bare h⟩] = singleText k v := by
    simp [objectText, singleText, Field.line, List.intercalate]
  have hfield := parse_objectText [⟨k, v, v, .bare h⟩]
  rw [htext] at hfield
  exact hfield

/-- **Raw slices stand for themselves.**  An accepted text has one list of fields.  Where the last field of a key is no
string, the map binds the key to its slice; and the object that is made of any key and this slice is read, and binds
the key to the same slice. -/
theorem raw_slices_self_contained {text : Bytes} {object : JsonObject} {pos : ℕ}
    (h : parseJsonObject text = .ok object pos) :
    ∃ fields, ObjectFields text fields ∧ (∀ fields', ObjectFields text fields' → fields' = fields) ∧
      ∀ key field, lastField fields key = some field → field.text.head? ≠ some quote →
        object[key]? = some field.text ∧
          ∀ k, ∃ pos', parseJsonObject (singleText k field.text) = .ok ((∅ : JsonObject).insert k field.text) pos' := by
  obtain ⟨fields, hfields, hobject⟩ := exists_objectFields h
  refine ⟨fields, hfields, fun fields' hfields' => hfields'.unique hfields, ?_⟩
  intro key field hlast hhead
  obtain ⟨hvalue, hbare⟩ := Field.bare_of_head hhead
  refine ⟨?_, fun k => ⟨_, parse_singleText hbare k⟩⟩
  rw [hobject, getElem?_bindAll_lastField, hlast, Option.map_some, hvalue]

/-- A number in front of a comma is the same number in front of the brace, behind another key. -/
theorem raw_slices_self_contained_number :
    ∃ pos, parseJsonObject (singleText (ascii "x") (int64ToString (-7))) =
      .ok ((∅ : JsonObject).insert (ascii "x") (int64ToString (-7))) pos := by
  have hread := parse_objectText [Field.int (ascii "mid") (-7), Field.string (ascii "sdp") (ascii "o")]
  obtain ⟨fields, -, hunique, hslices⟩ := raw_slices_self_contained hread
  obtain rfl := hunique _ (objectFields_objectText _)
  have hslice := hslices (ascii "mid") (Field.int (ascii "mid") (-7)) rfl (by decide)
  exact hslice.2 (ascii "x")

end ChatService.JsonGrammar
