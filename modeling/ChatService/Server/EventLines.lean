import ChatService.Common.JsonPrefix
import ChatService.Server.Outgoing

/-!
# When a line is an event and nothing else

`EventLine` says that a line is exactly one event: one line, one object, the sender, the type and, for a
call event, the recipient and the call that the event is about, no key twice, and no key that is not the
event's own.

* `eventLine_makeJsonLine` — the lines of `makeJsonLine` are events when their objects are.
* `eventLine_buildSignalingEvent_iff` — a forwarded line is an event exactly when the pasted payload is
  one object without a newline (`OneObject`).
-/

namespace ChatService

open Byte JsonGrammar

/-- What an event is, apart from its sender and its recipient: its type, the call it is about, if it is a
call event, and its own keys. -/
structure EventSpec where
  type : Bytes
  callId : Option Bytes
  keys : List String
deriving DecidableEq

/-- The line is this event, from `sender` to `recipient`, and nothing else. -/
def EventLine (spec : EventSpec) (sender recipient line : Bytes) : Prop :=
  ∃ body object pos bs, line = body ++ [newline] ∧ newline ∉ body ∧
    parseJsonObject body = .ok object pos ∧
    object[ascii "type"]? = some spec.type ∧ object[ascii "from"]? = some sender ∧
    (∀ callId, spec.callId = some callId →
      object[ascii "to"]? = some recipient ∧ object[ascii "call_id"]? = some callId) ∧
    Text body bs ∧ (bs.map Prod.fst).Nodup ∧ ∀ key ∈ bs.map Prod.fst, key ∈ spec.keys.map ascii

/-- A written object has no key twice, and its keys are the keys of the map. -/
theorem eventLine_makeJsonLine {spec : EventSpec} {sender recipient : Bytes} {object : JsonObject}
    (htype : object[ascii "type"]? = some spec.type) (hfrom : object[ascii "from"]? = some sender)
    (hcall : ∀ callId, spec.callId = some callId →
      object[ascii "to"]? = some recipient ∧ object[ascii "call_id"]? = some callId)
    (hkeys : ∀ key ∈ object, key ∈ spec.keys.map ascii) :
    EventLine spec sender recipient (makeJsonLine object) := by
  have hmap : object.toList.map Prod.fst = object.keys := Std.ExtTreeMap.map_fst_toList_eq_keys
  refine ⟨serializeJsonObject object, object, _, object.toList, rfl, ?_, parse_serialize object, htype,
    hfrom, hcall, text_serializeJsonObject object, ?_, ?_⟩
  · intro hnewline
    exact absurd (serializeJsonObject_visible object _ hnewline) (by decide)
  · rw [hmap]
    exact Std.ExtTreeMap.nodup_keys
  · intro key hkey
    rw [hmap, Std.ExtTreeMap.mem_keys] at hkey
    exact hkeys key hkey

/-- The keys that every call event has. -/
def callKeys : List String := ["type", "from", "to", "call_id"]

section

variable {type username target callId reason message room : Bytes}

/-- What a call event says, and the keys that it has. -/
theorem lookup_makeCallEvent :
    (makeCallEvent type username target callId reason)[ascii "type"]? = some type ∧
      (makeCallEvent type username target callId reason)[ascii "from"]? = some username ∧
      (makeCallEvent type username target callId reason)[ascii "to"]? = some target ∧
      (makeCallEvent type username target callId reason)[ascii "call_id"]? = some callId := by
  rw [makeCallEvent]
  split_ifs <;>
    simp (disch := decide) only [Tables.getElem?_insert_self, Tables.getElem?_insert_of_ne, and_self]

theorem mem_makeCallEvent {key : Bytes} (h : key ∈ makeCallEvent type username target callId reason) :
    key ∈ callKeys.map ascii ∨ (reason ≠ [] ∧ key = ascii "reason") := by
  have hkeys : ∀ key, key ∈ makeCallEvent type username target callId [] → key ∈ callKeys.map ascii := by
    intro key hkey
    simp only [makeCallEvent, if_true, Tables.mem_insert, Std.ExtTreeMap.not_mem_empty, or_false] at hkey
    simp only [callKeys, List.map_cons, List.map_nil, List.mem_cons]
    tauto
  rw [makeCallEvent] at h
  split_ifs at h with hreason
  · exact .inl (hkeys key h)
  · rcases (Tables.mem_insert _ _ _ _).mp h with heq | hkey
    · exact .inr ⟨hreason, heq.symm⟩
    · exact .inl (hkeys key hkey)

/-- The call events that the server writes. -/
theorem eventLine_makeCallEvent {extra : List String} (hextra : reason ≠ [] → "reason" ∈ extra) :
    EventLine ⟨type, some callId, callKeys ++ extra⟩ username target
      (makeJsonLine (makeCallEvent type username target callId reason)) := by
  obtain ⟨htype, hfrom, hto, hid⟩ :=
    @lookup_makeCallEvent type username target callId reason
  refine eventLine_makeJsonLine htype hfrom ?_ ?_
  · intro id h
    obtain rfl := Option.some.inj h
    exact ⟨hto, hid⟩
  · intro key hkey
    rw [List.map_append, List.mem_append]
    refine (mem_makeCallEvent hkey).imp_right ?_
    rintro ⟨hreason, rfl⟩
    exact List.mem_map_of_mem (hextra hreason)

/-- An invite also has its medium. -/
theorem eventLine_invite :
    EventLine ⟨type, some callId, callKeys ++ ["media"]⟩ username target
      (makeJsonLine ((makeCallEvent type username target callId []).insert (ascii "media")
        (ascii "video"))) := by
  obtain ⟨htype, hfrom, hto, hid⟩ := @lookup_makeCallEvent type username target callId []
  have hold : ∀ key value, key ≠ ascii "media" →
      (makeCallEvent type username target callId [])[key]? = some value →
      ((makeCallEvent type username target callId []).insert (ascii "media")
        (ascii "video"))[key]? = some value := by
    intro key value hkey h
    rw [Tables.getElem?_insert_of_ne hkey.symm, h]
  refine eventLine_makeJsonLine (hold _ _ (by decide) htype) (hold _ _ (by decide) hfrom) ?_ ?_
  · intro id h
    obtain rfl := Option.some.inj h
    exact ⟨hold _ _ (by decide) hto, hold _ _ (by decide) hid⟩
  · intro key hkey
    rw [List.map_append, List.mem_append]
    rcases (Tables.mem_insert _ _ _ _).mp hkey with rfl | hkey
    · exact .inr (List.mem_singleton_self _)
    · refine (mem_makeCallEvent hkey).imp_right ?_
      rintro ⟨hreason, -⟩
      exact absurd rfl hreason

theorem eventLine_privateEvent {messageId createdAt : ℤ} {recipient : Bytes} :
    EventLine ⟨ascii "private", none, ["type", "from", "message", "id", "created_at"]⟩ username
      recipient (makeJsonLine (privateEvent username message messageId createdAt)) := by
  refine eventLine_makeJsonLine ?_ ?_ (by simp) ?_
  · simp (disch := decide) only [privateEvent, Tables.getElem?_insert_self,
      Tables.getElem?_insert_of_ne]
  · simp (disch := decide) only [privateEvent, Tables.getElem?_insert_self,
      Tables.getElem?_insert_of_ne]
  · intro key hkey
    simp only [privateEvent, Tables.mem_insert, Std.ExtTreeMap.not_mem_empty, or_false] at hkey
    simp only [List.map_cons, List.map_nil, List.mem_cons]
    tauto

theorem eventLine_roomEvent {messageId createdAt : ℤ} {recipient : Bytes} :
    EventLine ⟨ascii "room", none, ["type", "room", "from", "message", "id", "created_at"]⟩ username
      recipient (makeJsonLine (roomEvent room username message messageId createdAt)) := by
  refine eventLine_makeJsonLine ?_ ?_ (by simp) ?_
  · simp (disch := decide) only [roomEvent, Tables.getElem?_insert_self,
      Tables.getElem?_insert_of_ne]
  · simp (disch := decide) only [roomEvent, Tables.getElem?_insert_self,
      Tables.getElem?_insert_of_ne]
  · intro key hkey
    simp only [roomEvent, Tables.mem_insert, Std.ExtTreeMap.not_mem_empty, or_false] at hkey
    simp only [List.map_cons, List.map_nil, List.mem_cons]
    tauto

end

/-! ### Forwarded lines -/

/-- One value of the grammar that is not a string, with white space behind it, and no newline.  Where the
first byte is a brace, as in a payload that is forwarded, the value is an object. -/
def OneObject (raw : Bytes) : Prop :=
  newline ∉ raw ∧ ∃ v w, raw = v ++ w ∧ Derives .bare v ∧ Ws w

/-- A string as it is written. -/
def quoted (value : Bytes) : Bytes := quote :: escapeJsonString value ++ [quote]

theorem stringLit_quoted (value : Bytes) : StringLit (quoted value) value :=
  stringLit_escapeJsonString value

theorem newline_not_mem_quoted (value : Bytes) : newline ∉ quoted value := by
  intro h
  have hvisible : ∀ b ∈ quoted value, 0x20 ≤ b := by
    simp only [quoted, List.forall_mem_append, List.forall_mem_cons]
    exact ⟨⟨by decide +kernel, escapeJsonString_visible value⟩, by decide +kernel⟩
  exact absurd (hvisible _ h) (by decide)

/-- The forwarded line as members, without its newline. -/
def signalingBody (type username target callId payloadName raw : Bytes) : Bytes :=
  lbrace :: (quoted (ascii "type") ++ colon :: quoted type ++ comma ::
    (quoted (ascii "from") ++ colon :: quoted username ++ comma ::
      (quoted (ascii "to") ++ colon :: quoted target ++ comma ::
        (quoted (ascii "call_id") ++ colon :: quoted callId ++ comma ::
          (quoted payloadName ++ colon :: raw ++ [rbrace])))))

section

variable {type username target callId payloadName raw : Bytes}

theorem buildSignalingEvent_eq :
    buildSignalingEvent type username target callId payloadName raw =
      signalingBody type username target callId payloadName raw ++ [newline] := by
  simp [buildSignalingEvent, appendJsonStringField, jsonStringField, signalingBody, quoted]

theorem newline_mem_signalingBody :
    newline ∈ signalingBody type username target callId payloadName raw ↔ newline ∈ raw := by
  have h := newline_not_mem_quoted
  have hne : newline ≠ lbrace ∧ newline ≠ colon ∧ newline ≠ comma ∧ newline ≠ rbrace := by decide
  simp [signalingBody, h, hne]

/-- The bindings of a forwarded line begin with the four fields the server writes. -/
theorem bindings_signalingBody {bs : List (Bytes × Bytes)}
    (h : Text (signalingBody type username target callId payloadName raw) bs) :
    ∃ ms w bs', Bindings ms bs' ∧ Ws w ∧
      ms ++ rbrace :: w = quoted payloadName ++ colon :: raw ++ [rbrace] ∧
      bs = (ascii "type", type) :: (ascii "from", username) :: (ascii "to", target) ::
        (ascii "call_id", callId) :: bs' := by
  obtain ⟨ms₁, w, h₁, hw, heq₁⟩ := h.of_member rfl rfl
  obtain ⟨ms₂, bs₂, rfl, h₂, heq₂⟩ :=
    h₁.of_string_member (stringLit_quoted _) (stringLit_quoted _) rfl heq₁
  obtain ⟨ms₃, bs₃, rfl, h₃, heq₃⟩ :=
    h₂.of_string_member (stringLit_quoted _) (stringLit_quoted _) rfl heq₂
  obtain ⟨ms₄, bs₄, rfl, h₄, heq₄⟩ :=
    h₃.of_string_member (stringLit_quoted _) (stringLit_quoted _) rfl heq₃
  obtain ⟨ms₅, bs₅, rfl, h₅, heq₅⟩ :=
    h₄.of_string_member (stringLit_quoted _) (stringLit_quoted _) rfl heq₄
  exact ⟨ms₅, w, bs₅, h₅, hw, heq₅, rfl⟩

/-- A forwarded line binds the four fields the server writes, and then what the payload makes of the
rest. -/
theorem text_signalingBody_of_bindings {bs : List (Bytes × Bytes)}
    (h : Bindings (quoted payloadName ++ colon :: raw) bs) :
    Text (signalingBody type username target callId payloadName raw)
      ([(ascii "type", type), (ascii "from", username), (ascii "to", target),
        (ascii "call_id", callId)] ++ bs) := by
  have h₄ := Bindings.cons (stringLit_quoted (ascii "call_id")) Ws.nil Ws.nil
    (.string (stringLit_quoted callId)) Ws.nil Ws.nil h
  have h₃ := Bindings.cons (stringLit_quoted (ascii "to")) Ws.nil Ws.nil
    (.string (stringLit_quoted target)) Ws.nil Ws.nil h₄
  have h₂ := Bindings.cons (stringLit_quoted (ascii "from")) Ws.nil Ws.nil
    (.string (stringLit_quoted username)) Ws.nil Ws.nil h₃
  have h₁ := Bindings.cons (stringLit_quoted (ascii "type")) Ws.nil Ws.nil
    (.string (stringLit_quoted type)) Ws.nil Ws.nil h₂
  simpa [signalingBody] using Text.members Ws.nil Ws.nil h₁ Ws.nil

/-- A forwarded line that pastes one object is what it should be. -/
theorem text_signalingBody {v w : Bytes} (hv : Derives .bare v) (hw : Ws w) :
    Text (signalingBody type username target callId payloadName (v ++ w))
      ([(ascii "type", type), (ascii "from", username), (ascii "to", target),
        (ascii "call_id", callId)] ++ [(payloadName, v)]) := by
  refine text_signalingBody_of_bindings ?_
  simpa using Bindings.last (stringLit_quoted payloadName) Ws.nil Ws.nil (.bare hv) hw

/-- **What is pasted behind the payload is a field of its own, and it overrides the server's.** -/
theorem parse_injected {v key value : Bytes} (hv : Derives .bare v) :
    ∃ object pos, parseJsonObject (signalingBody type username target callId payloadName
        (v ++ comma :: (quoted key ++ colon :: quoted value))) = .ok object pos ∧
      object[key]? = some value := by
  have hlast := Bindings.last (stringLit_quoted key) Ws.nil Ws.nil (.string (stringLit_quoted value))
    Ws.nil
  have hboth := Bindings.cons (stringLit_quoted payloadName) Ws.nil Ws.nil (.bare hv) Ws.nil Ws.nil
    hlast
  have htext : Text (signalingBody type username target callId payloadName
      (v ++ comma :: (quoted key ++ colon :: quoted value))) _ :=
    text_signalingBody_of_bindings (by simpa using hboth)
  exact ⟨_, _, parseJsonObject_complete htext, Tables.getElem?_insert_self ..⟩

end

/-- **A forwarded line is an event exactly when what it pastes is one object without a newline.** -/
theorem eventLine_buildSignalingEvent_iff {type username target callId raw : Bytes}
    {payloadName : String} (hname : payloadName = "sdp" ∨ payloadName = "candidate")
    (hraw : raw.head? = some lbrace) :
    EventLine ⟨type, some callId, callKeys ++ [payloadName]⟩ username target
      (buildSignalingEvent type username target callId (ascii payloadName) raw) ↔ OneObject raw := by
  have hnodup : ((callKeys ++ [payloadName]).map ascii).Nodup := by
    rcases hname with rfl | rfl <;> decide
  constructor
  · rintro ⟨body, object, pos, bs, hline, hnewline, -, -, -, -, htext, hbs, hkeys⟩
    rw [buildSignalingEvent_eq] at hline
    obtain rfl := List.append_cancel_right hline
    rw [newline_mem_signalingBody] at hnewline
    refine ⟨hnewline, ?_⟩
    obtain ⟨ms, w, bs', hms, hw, heq, rfl⟩ := bindings_signalingBody htext
    rcases hms.of_last_field hw (stringLit_quoted _) hraw heq with
      ⟨v, w', -, rfl, hv, hw'⟩ | ⟨y, b, bs'', rfl⟩
    · exact ⟨v, w', rfl, hv, hw'⟩
    · -- a sixth key would have to be one of the five
      have hbs' : ((callKeys ++ [payloadName]).map ascii ++ b.1 :: bs''.map Prod.fst).Nodup := hbs
      have hb : b.1 ∈ (callKeys ++ [payloadName]).map ascii := hkeys _ (by simp)
      exact absurd rfl ((List.nodup_append.mp hbs').2.2 _ hb _ List.mem_cons_self)
  · rintro ⟨hnewline, v, w, rfl, hv, hw⟩
    have htext : Text (signalingBody type username target callId (ascii payloadName) (v ++ w)) _ :=
      text_signalingBody hv hw
    have hbs : ([(ascii "type", type), (ascii "from", username), (ascii "to", target),
        (ascii "call_id", callId), (ascii payloadName, v)].map Prod.fst).Nodup := hnodup
    have hfields := fun (key value : Bytes) => @JsonObject.getElem?_bindAll_of_mem _ key value hbs
    exact ⟨_, _, _, _, buildSignalingEvent_eq, fun h => hnewline (newline_mem_signalingBody.mp h),
      parseJsonObject_complete htext, hfields _ _ (by simp), hfields _ _ (by simp),
      fun id hid => by
        obtain rfl := Option.some.inj hid
        exact ⟨hfields _ _ (by simp), hfields _ _ (by simp)⟩,
      htext, hnodup, fun key hkey => hkey⟩

end ChatService
