import ChatService.Common.JsonArray
import ChatService.Foundation.Separators
import ChatService.Server.Outgoing

/-!
# What is read in a history page, and in a dump

A history response is one object whose `messages` are an array of objects; a dump is such an array alone.
Both are written field by field.  A reader that follows the grammar gets one object for each message, whose
`id` and `content` are those of the message the server had in hand, whatever bytes the content has
(`readsPage_private`, `readsPage_room`, `lists_dump`).
-/

namespace ChatService

open Byte JsonGrammar

/-! ### The dump (`server/ChatStorage.cc`) -/

namespace ChatStorage

/-- Written like the fields of a history page. -/
def writeJsonField (name : String) (value : Bytes) (first : Bool) : Bytes :=
  appendJsonStringField name value first

def writeJsonIntField (name : String) (value : ℤ) (first : Bool) : Bytes :=
  appendJsonIntField name value first

/-- One message of the dump. -/
def dumpMessageJson (message : Message) : Bytes :=
  ascii "  \x7b" ++ writeJsonIntField "id" message.id true ++
    writeJsonField "conversation_type" message.conversationType false ++
    writeJsonField "conversation_id" message.conversationId false ++
    writeJsonField "sender" message.sender false ++
    writeJsonField "receiver" message.receiver false ++
    writeJsonField "room_id" message.roomId false ++
    writeJsonField "content" message.content false ++
    writeJsonIntField "created_at" message.createdAt false ++ [rbrace]

/-- `ORDER BY id ASC`. -/
def rowsById (storage : ChatStorage) : List Message :=
  storage.rows.insertionSort fun x y => x.id ≤ y.id

/-- The text that is written to the file. -/
def dumpAllMessagesJson (storage : ChatStorage) : Bytes :=
  ascii "[\n" ++ List.intercalate (ascii ",\n")
    ((storage.rowsById.map messageFromStatement).map dumpMessageJson) ++ ascii "\n]\n"

end ChatStorage

/-! ### Reading -/

/-- The array lists these objects. -/
def Lists (raw : Bytes) (items : List JsonObject) : Prop :=
  ∃ texts, ArrayText raw texts ∧
    List.Forall₂ (fun text item => ∃ pos, parseJsonObject text = .ok item pos) texts items

/-- The `messages` of a response. -/
def ReadsPage (text : Bytes) (items : List JsonObject) : Prop :=
  ∃ object pos, parseJsonObject text = .ok object pos ∧ Lists (fieldOrEmpty object "messages") items

/-- What an object binds that is written from fields. -/
def itemOf (fields : List Field) : JsonObject :=
  JsonObject.bindAll ∅ (fields.map fun field => (field.key, field.value))

theorem fieldOrEmpty_itemOf {fields : List Field} (field : Field) {key : String}
    (hnodup : (fields.map Field.key).Nodup) (hfield : field ∈ fields) (hkey : field.key = ascii key) :
    fieldOrEmpty (itemOf fields) key = field.value := by
  have hmem : (ascii key, field.value) ∈ fields.map fun field => (field.key, field.value) :=
    List.mem_map.mpr ⟨field, hfield, by rw [hkey]⟩
  rw [fieldOrEmpty, itemOf, JsonObject.getElem?_bindAll_of_mem (by rwa [List.map_map]) hmem]
  rfl

/-- An array of objects that are written from fields lists these objects, and no others. -/
theorem lists_iff {α : Type} {raw : Bytes} {fields : α → List Field}
    {l : List α} (harray : ArrayText raw (l.map fun x => objectText (fields x)))
    (items : List JsonObject) : Lists raw items ↔ items = l.map fun x => itemOf (fields x) := by
  have hforall : ∀ {l : List α} {items : List JsonObject},
      List.Forall₂ (fun text item => ∃ pos, parseJsonObject text = .ok item pos)
        (l.map fun x => objectText (fields x)) items ↔ items = l.map fun x => itemOf (fields x) := by
    intro l
    induction l with
    | nil =>
      intro items
      simp
    | cons x l ih =>
      intro items
      rw [List.map_cons, List.forall₂_cons_left_iff, List.map_cons]
      constructor
      · rintro ⟨item, items, ⟨pos, hparse⟩, hrest, rfl⟩
        rw [parse_objectText (fields x)] at hparse
        rw [ih.mp hrest, ← (Scan.ok.inj hparse).1]
        rfl
      · rintro rfl
        exact ⟨_, _, ⟨_, parse_objectText (fields x)⟩, ih.mpr rfl, rfl⟩
  constructor
  · rintro ⟨texts, htexts, hitems⟩
    rw [htexts.unique harray] at hitems
    exact hforall.mp hitems
  · rintro rfl
    exact ⟨_, harray, hforall.mpr rfl⟩

/-! ### Pages -/

/-- The fields of a message of a private history. -/
def privateFields (message : Message) : List Field :=
  [.int (ascii "id") message.id, .string (ascii "sender") message.sender,
    .string (ascii "receiver") message.receiver, .string (ascii "content") message.content,
    .int (ascii "created_at") message.createdAt]

def roomFields (message : Message) : List Field :=
  [.int (ascii "id") message.id, .string (ascii "sender") message.sender,
    .string (ascii "room") message.roomId, .string (ascii "content") message.content,
    .int (ascii "created_at") message.createdAt]

def dumpFields (message : Message) : List Field :=
  [.int (ascii "id") message.id, .string (ascii "conversation_type") message.conversationType,
    .string (ascii "conversation_id") message.conversationId, .string (ascii "sender") message.sender,
    .string (ascii "receiver") message.receiver, .string (ascii "room_id") message.roomId,
    .string (ascii "content") message.content, .int (ascii "created_at") message.createdAt]

theorem appendPrivateMessageJson_eq (message : Message) :
    appendPrivateMessageJson message = objectText (privateFields message) := by
  simp [appendPrivateMessageJson, appendJsonIntField, appendJsonStringField, jsonStringField,
    objectText, privateFields, Field.line, Field.int, Field.string, List.intercalate]

theorem appendRoomMessageJson_eq (message : Message) :
    appendRoomMessageJson message = objectText (roomFields message) := by
  simp [appendRoomMessageJson, appendJsonIntField, appendJsonStringField, jsonStringField,
    objectText, roomFields, Field.line, Field.int, Field.string, List.intercalate]

theorem dumpMessageJson_eq (message : Message) :
    ChatStorage.dumpMessageJson message = ascii "  " ++ objectText (dumpFields message) := by
  have hindent : ascii "  \x7b" = ascii "  " ++ [lbrace] := by decide
  simp [ChatStorage.dumpMessageJson, ChatStorage.writeJsonIntField, ChatStorage.writeJsonField,
    appendJsonIntField, appendJsonStringField, jsonStringField, objectText, dumpFields, Field.line,
    Field.int, Field.string, List.intercalate, hindent]

/-- Every message has its id and its content, whatever else is in the object. -/
theorem privateFields_spec (message : Message) :
    fieldOrEmpty (itemOf (privateFields message)) "id" = int64ToString message.id ∧
      fieldOrEmpty (itemOf (privateFields message)) "content" = message.content := by
  have hnodup : ((privateFields message).map Field.key).Nodup := by
    show [ascii "id", ascii "sender", ascii "receiver", ascii "content", ascii "created_at"].Nodup
    decide
  exact ⟨fieldOrEmpty_itemOf (.int (ascii "id") message.id) hnodup (by simp [privateFields]) rfl,
    fieldOrEmpty_itemOf (.string (ascii "content") message.content) hnodup
      (by simp [privateFields]) rfl⟩

theorem roomFields_spec (message : Message) :
    fieldOrEmpty (itemOf (roomFields message)) "id" = int64ToString message.id ∧
      fieldOrEmpty (itemOf (roomFields message)) "content" = message.content := by
  have hnodup : ((roomFields message).map Field.key).Nodup := by
    show [ascii "id", ascii "sender", ascii "room", ascii "content", ascii "created_at"].Nodup
    decide
  exact ⟨fieldOrEmpty_itemOf (.int (ascii "id") message.id) hnodup (by simp [roomFields]) rfl,
    fieldOrEmpty_itemOf (.string (ascii "content") message.content) hnodup
      (by simp [roomFields]) rfl⟩

theorem dumpFields_spec (message : Message) :
    fieldOrEmpty (itemOf (dumpFields message)) "id" = int64ToString message.id ∧
      fieldOrEmpty (itemOf (dumpFields message)) "content" = message.content := by
  have hnodup : ((dumpFields message).map Field.key).Nodup := by
    show [ascii "id", ascii "conversation_type", ascii "conversation_id", ascii "sender",
      ascii "receiver", ascii "room_id", ascii "content", ascii "created_at"].Nodup
    decide
  exact ⟨fieldOrEmpty_itemOf (.int (ascii "id") message.id) hnodup (by simp [dumpFields]) rfl,
    fieldOrEmpty_itemOf (.string (ascii "content") message.content) hnodup
      (by simp [dumpFields]) rfl⟩

section

variable {type nameKey : String} {name : Bytes} {append : Message → Bytes} {fields : Message → List Field}

/-- The `messages` of a response, as they are written. -/
def messagesText (append : Message → Bytes) (messages : List Message) : Bytes :=
  lbracket :: List.intercalate [comma] (messages.map append) ++ [rbracket]

theorem arrayText_messagesText (happend : ∀ m, append m = objectText (fields m))
    (messages : List Message) :
    ArrayText (messagesText append messages) (messages.map fun m => objectText (fields m)) := by
  have hvalues : ∀ v ∈ messages.map fun m => objectText (fields m), Derives .value v := by
    intro v hv
    obtain ⟨m, -, rfl⟩ := List.mem_map.mp hv
    exact derives_objectText (fields m)
  have htexts : messages.map append = messages.map fun m => objectText (fields m) :=
    List.map_congr_left fun m _ => happend m
  simpa [messagesText, htexts] using arrayText_intercalate Ws.nil Ws.nil Ws.nil hvalues

/-- The fields of a response. -/
def pageFields (type nameKey : String) (name : Bytes) {raw : Bytes} (hraw : Derives .bare raw) : List Field :=
  [.string (ascii "type") (ascii type), .string (ascii nameKey) name, ⟨ascii "messages", raw, raw, .bare hraw⟩]

/-- A response is one object with three fields. -/
theorem buildHistoryResponse_eq {messages : List Message} (hraw : Derives .bare (messagesText append messages)) :
    buildHistoryResponse type nameKey name append messages =
      objectText (pageFields type nameKey name hraw) ++ [newline] := by
  have hlabel : ascii ",\"messages\":[" =
      comma :: quote :: escapeJsonString (ascii "messages") ++ [quote, colon, lbracket] := by decide
  have hend : [rbracket, rbrace, newline] = [rbracket, rbrace] ++ [newline] := rfl
  rw [buildHistoryResponse, hend, ← List.append_assoc, hlabel]
  simp [appendJsonStringField, jsonStringField, objectText, pageFields, Field.line, Field.string,
    List.intercalate, messagesText]

/-- A history response lists its messages. -/
theorem readsPage_iff (happend : ∀ m, append m = objectText (fields m))
    (hkeys : [ascii "type", ascii nameKey, ascii "messages"].Nodup)
    (messages : List Message) (items : List JsonObject) :
    ReadsPage (buildHistoryResponse type nameKey name append messages).dropLast items ↔
      items = messages.map fun m => itemOf (fields m) := by
  have harray := arrayText_messagesText happend messages
  have hmessages : fieldOrEmpty (itemOf (pageFields type nameKey name harray.derives)) "messages" =
      messagesText append messages :=
    fieldOrEmpty_itemOf ⟨ascii "messages", _, _, .bare harray.derives⟩ hkeys (by simp [pageFields]) rfl
  have hparse : parseJsonObject (objectText (pageFields type nameKey name harray.derives)) =
      .ok (itemOf (pageFields type nameKey name harray.derives))
        (objectText (pageFields type nameKey name harray.derives)).length :=
    parse_objectText _
  rw [buildHistoryResponse_eq harray.derives, List.dropLast_concat]
  constructor
  · rintro ⟨object, pos, hobject, hlists⟩
    rw [hparse] at hobject
    rw [← (Scan.ok.inj hobject).1, hmessages] at hlists
    exact (lists_iff harray items).mp hlists
  · rintro rfl
    refine ⟨_, _, hparse, ?_⟩
    rw [hmessages]
    exact (lists_iff harray _).mpr rfl

end

/-- **A private history lists its messages.** -/
theorem readsPage_private (peer : Bytes) (messages : List Message) (items : List JsonObject) :
    ReadsPage (buildPrivateHistoryResponse peer messages).dropLast items ↔
      items = messages.map fun m => itemOf (privateFields m) :=
  readsPage_iff appendPrivateMessageJson_eq (by decide) messages items

/-- **A room history lists its messages.** -/
theorem readsPage_room (room : Bytes) (messages : List Message) (items : List JsonObject) :
    ReadsPage (buildRoomHistoryResponse room messages).dropLast items ↔
      items = messages.map fun m => itemOf (roomFields m) :=
  readsPage_iff appendRoomMessageJson_eq (by decide) messages items

/-- What stands in front of every text may stand behind the separators. -/
theorem intercalate_map_append (sep w : Bytes) {texts : List Bytes} (hne : texts ≠ []) :
    List.intercalate sep (texts.map fun text => w ++ text) =
      w ++ List.intercalate (sep ++ w) texts := by
  induction texts with
  | nil => exact absurd rfl hne
  | cons text texts ih =>
    cases texts with
    | nil => simp [List.intercalate]
    | cons text' texts =>
      rw [List.map_cons, List.map_cons, List.intercalate_cons_cons, ← List.map_cons,
        ih (by simp), List.intercalate_cons_cons]
      simp

/-- The text of a dump of these messages. -/
def dumpText (messages : List Message) : Bytes :=
  ascii "[\n" ++ List.intercalate (ascii ",\n") (messages.map ChatStorage.dumpMessageJson) ++ ascii "\n]\n"

theorem dumpAllMessagesJson_eq (storage : ChatStorage) :
    storage.dumpAllMessagesJson = dumpText (storage.rowsById.map ChatStorage.messageFromStatement) := rfl

/-- The text is an array, and a newline. -/
theorem exists_array_of_dumpText (messages : List Message) :
    ∃ raw, dumpText messages = raw ++ [newline] ∧
      ArrayText raw (messages.map fun m => objectText (dumpFields m)) := by
  have hopen : ascii "[\n" = lbracket :: [newline] := by decide
  have hclose : ascii "\n]\n" = [newline, rbracket] ++ [newline] := by decide
  have hsep : ascii ",\n" = comma :: [newline] := by decide
  have hspaces : ascii "  " = [0x20, 0x20] := by decide
  have hindent : Ws (ascii "  ") := by
    rw [hspaces, Ws, List.forall_mem_cons, List.forall_mem_singleton]
    decide
  have hnewline : Ws [newline] := by
    rw [Ws, List.forall_mem_singleton]
    decide
  have hvalues : ∀ v ∈ messages.map fun m => objectText (dumpFields m), Derives .value v := by
    intro v hv
    obtain ⟨m, -, rfl⟩ := List.mem_map.mp hv
    exact derives_objectText (dumpFields m)
  have htexts : messages.map ChatStorage.dumpMessageJson =
      (messages.map fun m => objectText (dumpFields m)).map fun text => ascii "  " ++ text := by
    rw [List.map_map]
    exact List.map_congr_left fun m _ => dumpMessageJson_eq m
  rw [dumpText, htexts, hopen, hclose, hsep, ← List.append_assoc]
  refine ⟨_, rfl, ?_⟩
  cases messages with
  | nil => simpa using ArrayText.empty (hnewline.append hnewline)
  | cons m messages =>
    rw [intercalate_map_append _ _ (by simp)]
    have harray := arrayText_intercalate (hnewline.append hindent) (hnewline.append hindent) hnewline
      hvalues
    simpa using harray

/-- **A dump lists all messages, in the order of their ids.** -/
theorem lists_dump (storage : ChatStorage) (items : List JsonObject) :
    Lists storage.dumpAllMessagesJson.dropLast items ↔
      items = (storage.rowsById.map ChatStorage.messageFromStatement).map fun m =>
        itemOf (dumpFields m) := by
  obtain ⟨raw, hraw, harray⟩ :=
    exists_array_of_dumpText (storage.rowsById.map ChatStorage.messageFromStatement)
  rw [dumpAllMessagesJson_eq, hraw, List.dropLast_concat]
  exact lists_iff harray items

/-! ### What is read back -/

section

variable (message : Message)

/-- A message of a private history, as it is read. -/
def privateItem : JsonObject :=
  (((((∅ : JsonObject).insert (ascii "id") (int64ToString message.id)).insert (ascii "sender")
    message.sender).insert (ascii "receiver") message.receiver).insert (ascii "content")
    message.content).insert (ascii "created_at") (int64ToString message.createdAt)

def roomItem : JsonObject :=
  (((((∅ : JsonObject).insert (ascii "id") (int64ToString message.id)).insert (ascii "sender")
    message.sender).insert (ascii "room") message.roomId).insert (ascii "content")
    message.content).insert (ascii "created_at") (int64ToString message.createdAt)

/-- A message of a dump. -/
def dumpItem : JsonObject :=
  ((((((((∅ : JsonObject).insert (ascii "id") (int64ToString message.id)).insert (ascii "conversation_type")
    message.conversationType).insert (ascii "conversation_id") message.conversationId).insert (ascii "sender")
    message.sender).insert (ascii "receiver") message.receiver).insert (ascii "room_id")
    message.roomId).insert (ascii "content") message.content).insert (ascii "created_at")
    (int64ToString message.createdAt)

end

/-- A response, as it is read; `raw` is the text of the messages. -/
def pageObject (type nameKey : String) (name raw : Bytes) : JsonObject :=
  (((∅ : JsonObject).insert (ascii "type") (ascii type)).insert (ascii nameKey) name).insert
    (ascii "messages") raw

/-- An object is visible if the texts in it are. -/
theorem objectText_visible {fields : List Field} (h : ∀ field ∈ fields, ∀ b ∈ field.text, 0x20 ≤ b) :
    ∀ b ∈ objectText fields, 0x20 ≤ b := by
  have hsigns : ∀ b ∈ [lbrace, comma, quote, colon, rbrace], (0x20 : UInt8) ≤ b := by decide +kernel
  have hline : ∀ field ∈ fields, ∀ b ∈ field.line, 0x20 ≤ b := by
    intro field hfield
    simp only [Field.line, List.forall_mem_append, List.forall_mem_cons]
    exact ⟨⟨⟨hsigns _ (by simp), escapeJsonString_visible field.key⟩, hsigns _ (by simp), by simp⟩,
      hsigns _ (by simp), h field hfield⟩
  intro b hb
  rw [objectText, List.cons_append, List.mem_cons, List.mem_append, List.mem_singleton] at hb
  rcases hb with rfl | hb | rfl
  · exact hsigns _ (by simp)
  · refine Separators.forall_mem_intercalate ?_ ?_ b hb
    · rw [List.forall_mem_singleton]
      exact hsigns _ (by simp)
    · intro text htext
      obtain ⟨field, hfield, rfl⟩ := List.mem_map.mp htext
      exact hline field hfield
  · exact hsigns _ (by simp)

theorem string_visible (key value : Bytes) : ∀ b ∈ (Field.string key value).text, 0x20 ≤ b := by
  show ∀ b ∈ quote :: escapeJsonString value ++ [quote], 0x20 ≤ b
  simp only [List.forall_mem_append, List.forall_mem_cons]
  exact ⟨⟨by decide +kernel, escapeJsonString_visible value⟩, by decide +kernel⟩

theorem int_visible (key : Bytes) (value : ℤ) : ∀ b ∈ (Field.int key value).text, 0x20 ≤ b := by
  have hdigits : ∀ n, ∀ b ∈ decimalDigits n, 0x20 ≤ b := fun n b hb =>
    forall_byte (fun b => isdigit b = true → 0x20 ≤ b) (by decide +kernel) b ((digits_decimalDigits n).2 b hb)
  show ∀ b ∈ int64ToString value, 0x20 ≤ b
  rw [int64ToString_eq]
  split_ifs
  · exact hdigits _
  · rw [List.forall_mem_cons]
    exact ⟨by decide, hdigits _⟩

theorem privateFields_visible (message : Message) : ∀ field ∈ privateFields message, ∀ b ∈ field.text, 0x20 ≤ b := by
  simp only [privateFields, List.forall_mem_cons]
  exact ⟨int_visible _ _, string_visible _ _, string_visible _ _, string_visible _ _, int_visible _ _, by simp⟩

theorem roomFields_visible (message : Message) : ∀ field ∈ roomFields message, ∀ b ∈ field.text, 0x20 ≤ b := by
  simp only [roomFields, List.forall_mem_cons]
  exact ⟨int_visible _ _, string_visible _ _, string_visible _ _, string_visible _ _, int_visible _ _, by simp⟩

/-- A response is one line that is read as its page. -/
theorem response_is_read_back {type nameKey : String} {name : Bytes} {append : Message → Bytes}
    {fields : Message → List Field} (happend : ∀ m, append m = objectText (fields m))
    (hvisible : ∀ m, ∀ field ∈ fields m, ∀ b ∈ field.text, 0x20 ≤ b) (messages : List Message) :
    ∃ line raw, buildHistoryResponse type nameKey name append messages = line ++ [newline] ∧ newline ∉ line ∧
      parseJsonObject line = .ok (pageObject type nameKey name raw) line.length ∧
      ∀ items, Lists raw items ↔ items = messages.map fun m => itemOf (fields m) := by
  have harray := arrayText_messagesText happend messages
  have hraw : ∀ b ∈ messagesText append messages, 0x20 ≤ b := by
    have hsigns : ∀ b ∈ [lbracket, comma, rbracket], (0x20 : UInt8) ≤ b := by decide +kernel
    intro b hb
    rw [messagesText, List.cons_append, List.mem_cons, List.mem_append, List.mem_singleton] at hb
    rcases hb with rfl | hb | rfl
    · exact hsigns _ (by simp)
    · refine Separators.forall_mem_intercalate ?_ ?_ b hb
      · rw [List.forall_mem_singleton]
        exact hsigns _ (by simp)
      · intro text htext
        obtain ⟨m, -, rfl⟩ := List.mem_map.mp htext
        rw [happend]
        exact objectText_visible (hvisible m)
    · exact hsigns _ (by simp)
  have hpage : ∀ field ∈ pageFields type nameKey name harray.derives, ∀ b ∈ field.text, 0x20 ≤ b := by
    simp only [pageFields, List.forall_mem_cons]
    exact ⟨string_visible _ _, string_visible _ _, hraw, by simp⟩
  refine ⟨objectText (pageFields type nameKey name harray.derives), messagesText append messages,
    buildHistoryResponse_eq harray.derives, ?_, ?_, lists_iff harray⟩
  · intro hmem
    exact absurd (objectText_visible hpage _ hmem) (by decide)
  · exact parse_objectText _

/-- **What is emitted is read back.**  For every list of messages, whatever bytes their texts have, both responses
are one line that is read as an object with the type and the name, whose `messages` list one object a message,
in order, with the fields of the message; and a dump is an array that lists its messages with all columns. -/
theorem emitters_are_read_back (messages : List Message) (peer room : Bytes) :
    (∃ line raw, buildPrivateHistoryResponse peer messages = line ++ [newline] ∧ newline ∉ line ∧
      parseJsonObject line = .ok (pageObject "history_private_result" "peer" peer raw) line.length ∧
      ∀ items, Lists raw items ↔ items = messages.map privateItem) ∧
    (∃ line raw, buildRoomHistoryResponse room messages = line ++ [newline] ∧ newline ∉ line ∧
      parseJsonObject line = .ok (pageObject "history_room_result" "room" room raw) line.length ∧
      ∀ items, Lists raw items ↔ items = messages.map roomItem) ∧
    (∃ raw, dumpText messages = raw ++ [newline] ∧ ∀ items, Lists raw items ↔ items = messages.map dumpItem) ∧
    ∀ storage : ChatStorage,
      storage.dumpAllMessagesJson = dumpText (storage.rowsById.map ChatStorage.messageFromStatement) := by
  refine ⟨?_, ?_, ?_, dumpAllMessagesJson_eq⟩
  · exact response_is_read_back appendPrivateMessageJson_eq privateFields_visible messages
  · exact response_is_read_back appendRoomMessageJson_eq roomFields_visible messages
  · obtain ⟨raw, hraw, harray⟩ := exists_array_of_dumpText messages
    exact ⟨raw, hraw, lists_iff harray⟩

end ChatService
