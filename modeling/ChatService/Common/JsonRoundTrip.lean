import ChatService.Common.JsonLanguage

/-!
# The writer and the reader agree

`serializeJsonObject` writes a text of the grammar whose bindings are those of the map, so the reader
gives the map back.  The escaper leaves no byte below `0x20` in the text, so a line made by
`makeJsonLine` has no newline but its last byte.
-/

namespace ChatService

open Byte JsonGrammar

/-! ### Escaping one byte -/

/-- What `escapeByte` writes for `ch` is read back as `ch`. -/
theorem stringBody_escapeByte (ch : UInt8) {v d : Bytes} (h : StringBody v d) :
    StringBody (escapeByte ch ++ v) (ch :: d) := by
  rw [escapeByte]
  split_ifs with hq hb h8 hc hn hr ht hlt
  · exact .escape (hq ▸ .quote) h
  · exact .escape (hb ▸ .backslash) h
  · exact .escape (h8 ▸ .b) h
  · exact .escape (hc ▸ .f) h
  · exact .escape (hn ▸ .n) h
  · exact .escape (hr ▸ .r) h
  · exact .escape (ht ▸ .t) h
  · -- a control byte: the code is spelled with two hexadecimal digits behind `\u00`
    have hsmall : ch.toNat < 0x20 := UInt8.lt_iff_toNat_lt.mp hlt
    have hcode : ((0 * 16 + 0) * 16 + ch.toNat / 16) * 16 + ch.toNat % 16 = ch.toNat := by omega
    have hzero : hexValue zero = some 0 := by decide
    have := StringBody.unicode hzero hzero (hexValue_hexDigit (ch.toNat / 16) (by omega))
      (hexValue_hexDigit (ch.toNat % 16) (by omega)) hcode (by omega) h
    rwa [UInt8.ofNat_toNat] at this
  · exact .plain (UInt8.not_lt.mp hlt) hq hb h

/-- The escaper writes visible bytes only. -/
theorem escapeByte_visible (ch : UInt8) : ∀ b ∈ escapeByte ch, 0x20 ≤ b := by
  have hdigit : ∀ n < 16, (0x20 : UInt8) ≤ hexDigit n := by decide
  rw [escapeByte]
  split_ifs with hq hb h8 hc hn hr ht hlt
  iterate 7
    rw [List.forall_mem_cons, List.forall_mem_singleton]
    decide
  · have hescape : ascii "\\u00" = [backslash, 0x75, zero, zero] := by decide
    have hvisible : (0x20 : UInt8) ≤ backslash ∧ (0x20 : UInt8) ≤ 0x75 ∧ (0x20 : UInt8) ≤ zero := by
      decide
    have hsmall : ch.toNat < 0x20 := UInt8.lt_iff_toNat_lt.mp hlt
    have hhigh := hdigit (ch.toNat / 16) (by omega)
    have hlow := hdigit (ch.toNat % 16) (by omega)
    simp [hescape, hvisible, hhigh, hlow]
  · rw [List.forall_mem_singleton]
    exact UInt8.not_lt.mp hlt

/-! ### Strings, members, objects -/

theorem stringBody_escapeJsonString (value : Bytes) : StringBody (escapeJsonString value) value := by
  induction value with
  | nil => exact .nil
  | cons ch value ih => exact stringBody_escapeByte ch ih

theorem escapeJsonString_visible (value : Bytes) : ∀ b ∈ escapeJsonString value, 0x20 ≤ b := by
  intro b hb
  obtain ⟨ch, -, hb⟩ := List.mem_flatMap.mp hb
  exact escapeByte_visible ch b hb

/-- A quoted, escaped string is a string literal for it. -/
theorem stringLit_escapeJsonString (value : Bytes) :
    StringLit (quote :: escapeJsonString value ++ [quote]) value :=
  ⟨_, rfl, stringBody_escapeJsonString value⟩

/-- The written members bind exactly the pairs they are written from. -/
theorem bindings_serializeMembers :
    ∀ (kv : Bytes × Bytes) (rest : List (Bytes × Bytes)),
      Bindings (serializeMembers true (kv :: rest)) (kv :: rest) := by
  intro kv rest
  induction rest generalizing kv with
  | nil =>
    have := Bindings.last (stringLit_escapeJsonString kv.1) Ws.nil Ws.nil
      (.string (stringLit_escapeJsonString kv.2)) Ws.nil
    simpa [serializeMembers, jsonStringField] using this
  | cons kv' rest ih =>
    have := Bindings.cons (stringLit_escapeJsonString kv.1) Ws.nil Ws.nil
      (.string (stringLit_escapeJsonString kv.2)) Ws.nil Ws.nil (ih kv')
    simpa [serializeMembers, jsonStringField] using this

theorem text_serializeJsonObject (object : JsonObject) :
    Text (serializeJsonObject object) object.toList := by
  rw [serializeJsonObject]
  cases object.toList with
  | nil => exact Text.empty Ws.nil Ws.nil Ws.nil
  | cons kv rest =>
    simpa using Text.members Ws.nil Ws.nil (bindings_serializeMembers kv rest) Ws.nil

/-- The signs around the strings are visible. -/
theorem signs_visible : (0x20 : UInt8) ≤ quote ∧ (0x20 : UInt8) ≤ colon ∧ (0x20 : UInt8) ≤ comma ∧
    (0x20 : UInt8) ≤ lbrace ∧ (0x20 : UInt8) ≤ rbrace := by decide

theorem jsonStringField_visible (key value : Bytes) : ∀ b ∈ jsonStringField key value, 0x20 ≤ b := by
  obtain ⟨hquote, hcolon, -⟩ := signs_visible
  simp only [jsonStringField, List.forall_mem_append, List.forall_mem_cons]
  exact ⟨⟨⟨⟨hquote, escapeJsonString_visible key⟩, hquote, hcolon, hquote, by simp⟩, escapeJsonString_visible value⟩,
    hquote, by simp⟩

theorem serializeMembers_visible (first : Bool) (kvs : List (Bytes × Bytes)) :
    ∀ b ∈ serializeMembers first kvs, 0x20 ≤ b := by
  obtain ⟨-, -, hcomma, -⟩ := signs_visible
  induction kvs generalizing first with
  | nil => simp [serializeMembers]
  | cons kv rest ih =>
    simp only [serializeMembers, List.forall_mem_append]
    refine ⟨⟨?_, jsonStringField_visible kv.1 kv.2⟩, ih false⟩
    cases first with
    | true => exact fun b hb => absurd hb List.not_mem_nil
    | false => exact List.forall_mem_singleton.mpr hcomma

theorem serializeJsonObject_visible (object : JsonObject) :
    ∀ b ∈ serializeJsonObject object, 0x20 ≤ b := by
  obtain ⟨-, -, -, hlbrace, hrbrace⟩ := signs_visible
  simp only [serializeJsonObject, List.forall_mem_append, List.forall_mem_cons]
  exact ⟨⟨hlbrace, serializeMembers_visible true object.toList⟩, hrbrace, by simp⟩

/-- Where no key is bound twice, every binding can be read back. -/
theorem JsonObject.getElem?_bindAll_of_mem {bs : List (Bytes × Bytes)} {key value : Bytes}
    (hnodup : (bs.map Prod.fst).Nodup) (hmem : (key, value) ∈ bs) :
    (JsonObject.bindAll ∅ bs)[key]? = some value := by
  have hof : JsonObject.bindAll ∅ bs = Std.ExtTreeMap.ofList bs compare :=
    Std.ExtTreeMap.ofList_eq_foldl.symm
  have hdistinct : bs.Pairwise fun a b => ¬ compare a.1 b.1 = .eq := by
    refine (List.pairwise_map.mp hnodup).imp fun hne heq => hne ?_
    exact Std.LawfulEqCmp.compare_eq_iff_eq.mp heq
  rw [hof]
  exact Std.ExtTreeMap.getElem?_ofList_of_mem (by simp) hdistinct hmem

/-- Binding a map's own pairs one after another gives the map back. -/
theorem JsonObject.bindAll_toList (object : JsonObject) :
    JsonObject.bindAll ∅ object.toList = object := by
  have hof : JsonObject.bindAll ∅ object.toList = Std.ExtTreeMap.ofList object.toList compare :=
    Std.ExtTreeMap.ofList_eq_foldl.symm
  rw [hof]
  refine Std.ExtTreeMap.ext_getElem? fun key => ?_
  cases hkey : object[key]? with
  | none =>
    refine Std.ExtTreeMap.getElem?_ofList_of_contains_eq_false ?_
    rw [Std.ExtTreeMap.map_fst_toList_eq_keys]
    simpa using hkey
  | some value =>
    exact Std.ExtTreeMap.getElem?_ofList_of_mem (by simp) Std.ExtTreeMap.distinct_keys_toList
      (Std.ExtTreeMap.mem_toList_iff_getElem?_eq_some.mpr hkey)

/-- The reader gives a written map back. -/
theorem parse_serialize (object : JsonObject) :
    parseJsonObject (serializeJsonObject object) =
      .ok object (serializeJsonObject object).length := by
  rw [parseJsonObject_complete (text_serializeJsonObject object), JsonObject.bindAll_toList]

/-- **Round trip.**  For every map of byte strings the reader gives back what the writer wrote, and a
written line is free of control bytes up to the newline that ends it. -/
theorem serializeJsonObject_round_trip (object : JsonObject) :
    parseJsonObject (serializeJsonObject object) =
        .ok object (serializeJsonObject object).length ∧
      (∀ b ∈ serializeJsonObject object, ¬ b < 0x20) ∧
      (makeJsonLine object).count newline = 1 ∧
      (makeJsonLine object).getLast? = some newline := by
  have hvisible := serializeJsonObject_visible object
  have hnone : newline ∉ serializeJsonObject object := fun h => absurd (hvisible _ h) (by decide)
  refine ⟨parse_serialize object, fun b hb => UInt8.not_lt.mpr (hvisible b hb), ?_, ?_⟩
  · simp [makeJsonLine, List.count_eq_zero_of_not_mem hnone]
  · simp [makeJsonLine]

end ChatService
