import ChatService.Common.JsonCompleteness

/-!
# The language of `parseJsonObject`

Soundness and completeness together: `parseJsonObject` accepts exactly the texts of the grammar, and
the map it returns is the one the derivation names, with the last binding of a repeated key winning.
-/

namespace ChatService

open JsonGrammar

/-- Binding one after another is the last-binding-wins reading of the list. -/
theorem JsonObject.getElem?_bindAll (object : JsonObject) (bs : List (Bytes × Bytes)) (key : Bytes) :
    (object.bindAll bs)[key]? = (lastBinding bs key).or object[key]? := by
  induction bs generalizing object with
  | nil => simp [bindAll, lastBinding]
  | cons kv bs ih =>
    obtain ⟨k, x⟩ := kv
    have hstep : object.bindAll ((k, x) :: bs) = JsonObject.bindAll (object.insert k x) bs := rfl
    have hlast : lastBinding ((k, x) :: bs) key =
        (lastBinding bs key).or (if key = k then some x else none) := by
      simp only [lastBinding, List.reverse_cons, List.lookup_append]
      congr 1
      by_cases hk : key = k <;> simp [List.lookup_cons, hk]
      simp [beq_eq_false_iff_ne.mpr hk]
    rw [hstep, ih, hlast, Option.or_assoc, Std.ExtTreeMap.getElem?_insert]
    congr 1
    by_cases hk : key = k
    · simp [hk]
    · simp [hk, Ne.symm hk]

/-- A map is determined by the bindings it reads back. -/
theorem JsonObject.eq_bindAll_iff {m : JsonObject} {bs : List (Bytes × Bytes)} :
    m = JsonObject.bindAll ∅ bs ↔ ∀ key, m[key]? = lastBinding bs key := by
  constructor
  · rintro rfl key
    simp [JsonObject.getElem?_bindAll]
  · intro h
    refine Std.ExtTreeMap.ext_getElem? fun key => ?_
    simp [JsonObject.getElem?_bindAll, h key]

/-- The reader returns `m` exactly on the texts whose bindings `m` reads back. -/
theorem parseJsonObject_ok_iff (text : Bytes) (m : JsonObject) :
    (∃ pos, parseJsonObject text = .ok m pos) ↔
      ∃ bs, Text text bs ∧ ∀ key, m[key]? = lastBinding bs key := by
  constructor
  · rintro ⟨pos, h⟩
    obtain ⟨bs, ht, hm⟩ := parseJsonObject_sound h
    exact ⟨bs, ht, JsonObject.eq_bindAll_iff.mp hm⟩
  · rintro ⟨bs, ht, hm⟩
    rw [JsonObject.eq_bindAll_iff.mpr hm]
    exact ⟨text.length, parseJsonObject_complete ht⟩

/-- **The language of the reader.**  `parseJsonObject` accepts a byte string exactly when the grammar
derives it, and what it returns is the map of the top-level bindings, the last binding of a repeated
key winning. -/
theorem parseJsonObject_language (text : Bytes) :
    ((∃ m pos, parseJsonObject text = .ok m pos) ↔ ∃ bs, Text text bs) ∧
      ∀ m, (∃ pos, parseJsonObject text = .ok m pos) ↔
        ∃ bs, Text text bs ∧ ∀ key, m[key]? = lastBinding bs key := by
  refine ⟨⟨?_, ?_⟩, parseJsonObject_ok_iff text⟩
  · rintro ⟨m, pos, h⟩
    obtain ⟨bs, ht, -⟩ := parseJsonObject_sound h
    exact ⟨bs, ht⟩
  · rintro ⟨bs, ht⟩
    exact ⟨_, _, parseJsonObject_complete ht⟩

end ChatService
