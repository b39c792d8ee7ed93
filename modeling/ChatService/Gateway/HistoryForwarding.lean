import ChatService.Gateway.HandleTcpText
import ChatService.Server.CommandRequests
import ChatService.Server.Contents

/-!
# History pages on their way to the browser

A history response is one line of UTF-8 without control characters, so the gateway sends it on as one message
exactly if it is within the gateway's limit.  The server has no limit of its own for the response: a page may
hold up to 500 messages, each up to the size of a request line.
-/

namespace ChatService

open Byte Gateway JsonGrammar

/-! ### What the response is made of -/

/-- UTF-8 without control characters. -/
structure Printable (bytes : Bytes) : Prop where
  valid : Utf8.Valid bytes
  visible : ∀ b ∈ bytes, 0x20 ≤ b

theorem Printable.append {xs ys : Bytes} (hx : Printable xs) (hy : Printable ys) : Printable (xs ++ ys) := by
  refine ⟨hx.valid.append hy.valid, ?_⟩
  rw [List.forall_mem_append]
  exact ⟨hx.visible, hy.visible⟩

theorem printable_of_ascii {bytes : Bytes} (h : ∀ b ∈ bytes, 0x20 ≤ b ∧ b < 0x80) : Printable bytes :=
  ⟨Utf8.valid_of_ascii fun b hb => (h b hb).2, fun b hb => (h b hb).1⟩

theorem Printable.cons {b : UInt8} {bytes : Bytes} (hb : 0x20 ≤ b ∧ b < 0x80) (h : Printable bytes) :
    Printable (b :: bytes) := by
  have hsingle : Printable [b] := printable_of_ascii (by rwa [List.forall_mem_singleton])
  exact hsingle.append h

/-- Escaping rewrites ASCII by ASCII. -/
theorem escapeByte_ascii (b : UInt8) (hb : b < 0x80) : ∀ b' ∈ escapeByte b, b' < 0x80 := by
  have hall := forall_byte (fun b => b < 0x80 → ((escapeByte b).all fun b' => decide (b' < 0x80)) = true)
    (by decide +kernel) b hb
  intro b' hb'
  exact of_decide_eq_true (List.all_eq_true.mp hall b' hb')

theorem escapeByte_beyond (b : UInt8) (hb : 0x80 ≤ b) : escapeByte b = [b] :=
  forall_byte (fun b => 0x80 ≤ b → escapeByte b = [b]) (by decide +kernel) b hb

theorem printable_escapeJsonString {value : Bytes} (h : Utf8.Valid value) : Printable (escapeJsonString value) :=
  ⟨h.flatMap escapeByte_ascii escapeByte_beyond, escapeJsonString_visible value⟩

theorem printable_int64ToString (n : ℤ) : Printable (int64ToString n) := by
  have hdigits : ∀ n, ∀ b ∈ decimalDigits n, 0x20 ≤ b ∧ b < 0x80 := fun n b hb =>
    forall_byte (fun b => isdigit b = true → 0x20 ≤ b ∧ b < 0x80) (by decide +kernel) b
      ((digits_decimalDigits n).2 b hb)
  rw [int64ToString_eq]
  split_ifs
  · exact printable_of_ascii (hdigits _)
  · exact (printable_of_ascii (hdigits _)).cons (by decide)

theorem Printable.quoted {value : Bytes} (h : Utf8.Valid value) :
    Printable (quote :: escapeJsonString value ++ [quote]) := by
  have hquote : Printable [quote] := printable_of_ascii (by rw [List.forall_mem_singleton]; decide)
  exact ((printable_escapeJsonString h).cons (by decide)).append hquote

/-- Texts with commas between them. -/
theorem Printable.intercalate {texts : List Bytes} (h : ∀ text ∈ texts, Printable text) :
    Printable (List.intercalate [comma] texts) :=
  Separators.of_append (printable_of_ascii (by simp)) Printable.append
    (printable_of_ascii (by rw [List.forall_mem_singleton]; decide)) h

/-- The key and the text of a field are. -/
def PrintableField (field : Field) : Prop := Utf8.Valid field.key ∧ Printable field.text

theorem printable_objectText {fields : List Field} (h : ∀ field ∈ fields, PrintableField field) :
    Printable (objectText fields) := by
  have hend : Printable [rbrace] := printable_of_ascii (by rw [List.forall_mem_singleton]; decide)
  have hlines : Printable (List.intercalate [comma] (fields.map Field.line)) := by
    apply Printable.intercalate
    intro line hline
    obtain ⟨field, hfield, rfl⟩ := List.mem_map.mp hline
    obtain ⟨hkey, htext⟩ := h field hfield
    exact (Printable.quoted hkey).append (htext.cons (by decide))
  exact (hlines.cons (by decide)).append hend

/-- The literals of the source are ASCII. -/
theorem valid_ascii {literal : String} (h : ((ascii literal).all fun b => decide (b < 0x80)) = true) :
    Utf8.Valid (ascii literal) :=
  Utf8.valid_of_ascii fun b hb => of_decide_eq_true (List.all_eq_true.mp h b hb)

theorem printableField_string {key : String} {value : Bytes}
    (hkey : ((ascii key).all fun b => decide (b < 0x80)) = true) (hvalue : Utf8.Valid value) :
    PrintableField (.string (ascii key) value) :=
  ⟨valid_ascii hkey, .quoted hvalue⟩

theorem printableField_int {key : String} (hkey : ((ascii key).all fun b => decide (b < 0x80)) = true)
    (value : ℤ) : PrintableField (.int (ascii key) value) :=
  ⟨valid_ascii hkey, printable_int64ToString value⟩

/-- The texts of a message are UTF-8. -/
structure Message.Utf8Texts (message : Message) : Prop where
  sender : Utf8.Valid message.sender
  receiver : Utf8.Valid message.receiver
  roomId : Utf8.Valid message.roomId
  content : Utf8.Valid message.content

theorem Message.Utf8Texts.privateFields {message : Message} (h : message.Utf8Texts) :
    ∀ field ∈ privateFields message, PrintableField field := by
  simp only [ChatService.privateFields, List.forall_mem_cons]
  exact ⟨printableField_int (by decide) _, printableField_string (by decide) h.sender,
    printableField_string (by decide) h.receiver, printableField_string (by decide) h.content,
    printableField_int (by decide) _, by simp⟩

theorem Message.Utf8Texts.roomFields {message : Message} (h : message.Utf8Texts) :
    ∀ field ∈ roomFields message, PrintableField field := by
  simp only [ChatService.roomFields, List.forall_mem_cons]
  exact ⟨printableField_int (by decide) _, printableField_string (by decide) h.sender,
    printableField_string (by decide) h.roomId, printableField_string (by decide) h.content,
    printableField_int (by decide) _, by simp⟩

/-- A response is printable, but for its newline. -/
theorem exists_printable_page {type nameKey : String} {name : Bytes} {append : Message → Bytes}
    {fields : Message → List Field} (htype : ((ascii type).all fun b => decide (b < 0x80)) = true)
    (hkey : ((ascii nameKey).all fun b => decide (b < 0x80)) = true) (hname : Utf8.Valid name)
    (happend : ∀ m, append m = objectText (fields m)) {messages : List Message}
    (hmessages : ∀ m ∈ messages, ∀ field ∈ fields m, PrintableField field) :
    ∃ body, buildHistoryResponse type nameKey name append messages = body ++ [rbrace, newline] ∧
      Printable (body ++ [rbrace]) := by
  have hraw := (arrayText_messagesText happend messages).derives
  have hbracket : Printable [rbracket] := printable_of_ascii (by rw [List.forall_mem_singleton]; decide)
  have harray : Printable (messagesText append messages) := by
    refine (Printable.intercalate ?_ |>.cons (by decide)).append hbracket
    intro text htext
    obtain ⟨m, hm, rfl⟩ := List.mem_map.mp htext
    rw [happend]
    exact printable_objectText (hmessages m hm)
  have hpage : Printable (objectText (pageFields type nameKey name hraw)) := by
    apply printable_objectText
    simp only [pageFields, List.forall_mem_cons]
    exact ⟨printableField_string (by decide) (valid_ascii htype), printableField_string hkey hname,
      ⟨valid_ascii (by decide), harray⟩, by simp⟩
  refine ⟨lbrace :: List.intercalate [comma] ((pageFields type nameKey name hraw).map Field.line), ?_, hpage⟩
  rw [buildHistoryResponse_eq hraw, objectText]
  simp

/-! ### Which messages the server accepts -/

/-- What the request of a message makes the server do. -/
def Save.handler (session : Conn) : Save → Handler Unit
  | privateMessage _ receiver content _ => sendPrivate session receiver content
  | roomMessage room _ content _ => sendRoomMessage session room content

/-- A request line within the limit asks for the message, and its text is UTF-8. -/
structure Save.Acceptable (save : Save) : Prop where
  valid : save.Valid
  utf8 : Utf8.Valid save.content
  nonempty : save.content ≠ []
  requested : ∃ line request, newline ∉ line ∧ line.length ≤ kMaxRequestLineBytes ∧
    onLine line = [.dispatch line request] ∧ ∀ session, handleRequest session request = save.handler session

/-- The rows of the table are those of accepted messages. -/
def ChatStorage.Acceptable (storage : ChatStorage) : Prop :=
  ∀ row ∈ storage.rows, ∃ id save, row = Save.row id save ∧ save.Acceptable

theorem Save.Acceptable.row {save : Save} (h : save.Acceptable) (id : ℤ) : (save.row id).Utf8Texts := by
  have hvalid := h.valid
  have hempty : Utf8.Valid [] := ⟨[], rfl⟩
  cases save with
  | privateMessage sender receiver content timestamp =>
    exact ⟨valid_of_isValidName hvalid.1, valid_of_isValidName hvalid.2, hempty, h.utf8⟩
  | roomMessage room sender content timestamp =>
    exact ⟨valid_of_isValidName hvalid.2, hempty, valid_of_isValidName hvalid.1, h.utf8⟩

/-- Reading a column as a C string cuts no character. -/
theorem Message.Utf8Texts.fromStatement {row : Message} (h : row.Utf8Texts) :
    (ChatStorage.messageFromStatement row).Utf8Texts := by
  have hcut : ∀ text, Utf8.Valid text → Utf8.Valid (ChatStorage.columnText text) := by
    intro text htext
    refine htext.takeWhile fun b hb => decide_eq_true ?_
    rintro rfl
    exact absurd hb (by decide)
  exact ⟨hcut _ h.sender, hcut _ h.receiver, hcut _ h.roomId, hcut _ h.content⟩

/-! ### The response of a conversation -/

/-- What the request names: the peer, or the room. -/
def Conversation.name : Conversation → Bytes
  | between _ peer => peer
  | inRoom room => room

/-- The line that answers a history request. -/
def Conversation.response (messages : List Message) : Conversation → Bytes
  | between _ peer => buildPrivateHistoryResponse peer messages
  | inRoom room => buildRoomHistoryResponse room messages

/-- `sendPrivateHistory` and `sendRoomHistory`, from the table to the line. -/
def Conversation.historyLine (conversation : Conversation) (storage : ChatStorage)
    (limitText beforeText : Bytes) : Bytes :=
  conversation.response
    (conversation.load storage (parseHistoryLimit limitText) (parseBeforeTimestamp beforeText))

theorem utf8Texts_of_load {storage : ChatStorage} (hstorage : storage.Acceptable) (conversation : Conversation)
    (limit before : ℤ) : ∀ m ∈ conversation.load storage limit before, m.Utf8Texts := by
  intro m hm
  rw [Conversation.load_eq] at hm
  obtain ⟨row, hrow, rfl⟩ := loaded_loadHistory storage _ _ _ _ m hm
  obtain ⟨id, save, rfl, hsave⟩ := hstorage row hrow
  exact (hsave.row id).fromStatement

/-- The line is a text that the gateway would send on as it is. -/
theorem exists_text_of_historyLine {storage : ChatStorage} (hstorage : storage.Acceptable)
    {conversation : Conversation} (hname : isValidName conversation.name = true) (limitText beforeText : Bytes) :
    ∃ text, conversation.historyLine storage limitText beforeText = Utf8.encode (text ++ ['\n']) ∧
      '\n' ∉ text ∧ Bridge.forwarded text = some text := by
  have hmessages := utf8Texts_of_load hstorage conversation (parseHistoryLimit limitText)
    (parseBeforeTimestamp beforeText)
  have hpage : ∃ body, conversation.historyLine storage limitText beforeText = body ++ [rbrace, newline] ∧
      Printable (body ++ [rbrace]) := by
    cases conversation with
    | between a b =>
      exact exists_printable_page (by decide) (by decide) (valid_of_isValidName hname) appendPrivateMessageJson_eq
        fun m hm => (hmessages m hm).privateFields
    | inRoom room =>
      exact exists_printable_page (by decide) (by decide) (valid_of_isValidName hname) appendRoomMessageJson_eq
        fun m hm => (hmessages m hm).roomFields
  obtain ⟨body, hline, ⟨text, htext⟩, hvisible⟩ := hpage
  obtain ⟨front, c, rfl, hc⟩ := Utf8.exists_concat (show rbrace < 0x80 by decide) htext
  refine ⟨front ++ [c], ?_, ?_, ?_⟩
  · have hend : Utf8.encode ['\n'] = [newline] := by decide
    rw [hline, Utf8.encode_append, htext, hend]
    simp
  · intro hmem
    have hbyte := Utf8.mem_encode_of_mem (by decide) hmem
    rw [htext] at hbyte
    exact absurd (hvisible _ hbyte) (by decide)
  · -- the last character is a brace
    have hbrace : c = '}' := Char.ext (UInt32.toNat_inj.mp hc)
    have hstay : (if (front ++ [c]).getLast? = some '\r' then (front ++ [c]).dropLast else front ++ [c]) =
        front ++ [c] := by
      rw [List.getLast?_concat, hbrace]
      exact if_neg (by decide)
    have hblank : Words.trim isJsSpace (front ++ [c]) ≠ [] := by
      have hmem : c ∈ front ++ [c] := by simp
      exact Words.trim_ne_nil hmem (by rw [hbrace]; decide)
    rw [Bridge.forwarded, hstay]
    exact if_neg hblank

/-- **A history page reaches the browser** as one message with its text, however its line is cut, exactly if the
line without its newline is within the gateway's limit. -/
theorem history_is_forwarded_iff {storage : ChatStorage} (hstorage : storage.Acceptable)
    {conversation : Conversation} (hname : isValidName conversation.name = true) (limitText beforeText : Bytes)
    (sent : List JsString) :
    ∃ text, conversation.historyLine storage limitText beforeText = Utf8.encode (text ++ ['\n']) ∧
      ((∀ chunks : List Bytes, chunks.flatten = conversation.historyLine storage limitText beforeText →
        Bridge.onChunks maxLineBytes (.idle sent) chunks = .idle (sent ++ [text])) ↔
        (conversation.historyLine storage limitText beforeText).length ≤ maxLineBytes + 1) := by
  obtain ⟨text, hline, hnewline, hforwarded⟩ :=
    exists_text_of_historyLine hstorage hname limitText beforeText
  have hlength : (Utf8.encode (text ++ ['\n'])).length = byteLength text + 1 := by
    rw [Utf8.encode_append, List.length_append]
    rfl
  refine ⟨text, hline, ?_⟩
  rw [hline, hlength, Bridge.onChunks_line_iff hnewline hforwarded]
  exact (Nat.add_le_add_iff_right).symm

/-! ### A page that is too long -/

theorem onLine_objectText (fields : List Field) :
    onLine (objectText fields) = [.dispatch (objectText fields) (itemOf fields)] := by
  have hlast : (objectText fields).getLast? = some rbrace := by
    rw [objectText, List.getLast?_concat]
  have hstrip : stripCarriageReturn (objectText fields) = objectText fields := by
    rw [stripCarriageReturn, hlast]
    exact if_neg (by decide)
  have hnonempty : objectText fields ≠ [] := by simp [objectText]
  rw [onLine, hstrip]
  show ite _ _ _ = _
  rw [if_neg hnonempty, parse_objectText fields]
  rfl

/-- A private message is accepted if its texts are short enough for a request line. -/
theorem acceptable_privateMessage {sender receiver content : Bytes} (hsender : isValidName sender = true)
    (hreceiver : isValidName receiver = true) (hutf8 : Utf8.Valid content) (hne : content ≠ [])
    (hlength : (escapeJsonString receiver).length + (escapeJsonString content).length ≤ 65000) (timestamp : ℤ) :
    (Save.privateMessage sender receiver content timestamp).Acceptable := by
  let fields : List Field := [.string (ascii "type") (ascii "private"), .string (ascii "target") receiver,
    .string (ascii "message") content]
  have hnodup : (fields.map Field.key).Nodup := by
    show [ascii "type", ascii "target", ascii "message"].Nodup
    decide
  have htype : fieldOrEmpty (itemOf fields) "type" = ascii "private" :=
    fieldOrEmpty_itemOf (.string (ascii "type") (ascii "private")) hnodup (by simp [fields]) rfl
  have htarget : fieldOrEmpty (itemOf fields) "target" = receiver :=
    fieldOrEmpty_itemOf (.string (ascii "target") receiver) hnodup (by simp [fields]) rfl
  have hmessage : fieldOrEmpty (itemOf fields) "message" = content :=
    fieldOrEmpty_itemOf (.string (ascii "message") content) hnodup (by simp [fields]) rfl
  have hprintable : Printable (objectText fields) := by
    apply printable_objectText
    simp only [fields, List.forall_mem_cons]
    exact ⟨printableField_string (by decide) (valid_ascii (by decide)),
      printableField_string (by decide) (valid_of_isValidName hreceiver),
      printableField_string (by decide) hutf8, by simp⟩
  have hline : (objectText fields).length ≤ kMaxRequestLineBytes := by
    have hkeys : (escapeJsonString (ascii "type")).length = 4 ∧ (escapeJsonString (ascii "private")).length = 7 ∧
        (escapeJsonString (ascii "target")).length = 6 ∧ (escapeJsonString (ascii "message")).length = 7 := by
      decide +kernel
    obtain ⟨h₁, h₂, h₃, h₄⟩ := hkeys
    simp only [objectText, fields, Field.line, Field.string, List.map_cons, List.map_nil, List.intercalate,
      List.intersperse_cons_cons, List.intersperse_singleton, List.flatten_cons, List.flatten_nil, List.length_append,
      List.length_cons, List.length_nil, h₁, h₂, h₃, h₄, kMaxRequestLineBytes]
    omega
  refine ⟨⟨hsender, hreceiver⟩, hutf8, hne, objectText fields, itemOf fields, ?_, hline, ?_, ?_⟩
  · intro hmem
    exact absurd (hprintable.visible _ hmem) (by decide)
  · exact onLine_objectText fields
  · intro session
    rw [handleRequest_private htype, htarget, hmessage]
    rfl

/-- Bob hears from alice. -/
def greeting : Save := .privateMessage (ascii "alice") (ascii "bob") (ascii "hello") 5

def greeted : ChatStorage := ⟨[greeting.row 1], 1, .counting⟩

theorem greeting_acceptable : ChatStorage.Acceptable greeted := by
  have hgreeting : greeting.Acceptable :=
    acceptable_privateMessage (by decide) (by decide) (valid_ascii (by decide)) (by decide) (by decide +kernel) 5
  intro row hrow
  exact ⟨1, greeting, List.mem_singleton.mp hrow, hgreeting⟩

/-- His page reaches him. -/
theorem greeting_is_forwarded :
    ∃ text, (Conversation.between (ascii "bob") (ascii "alice")).historyLine greeted [] [] =
        Utf8.encode (text ++ ['\n']) ∧
      ((∀ chunks : List Bytes, chunks.flatten =
          (Conversation.between (ascii "bob") (ascii "alice")).historyLine greeted [] [] →
        Bridge.onChunks maxLineBytes (.idle []) chunks = .idle ([] ++ [text])) ↔
        ((Conversation.between (ascii "bob") (ascii "alice")).historyLine greeted [] []).length ≤
          maxLineBytes + 1) :=
  history_is_forwarded_iff greeting_acceptable (by decide) [] [] []

/-- A message of `n` letters. -/
def longMessage (n : ℕ) : Save :=
  .privateMessage (ascii "alice") (ascii "bob") (List.replicate n 0x78) 5

/-- Five of them. -/
def longHistory (n : ℕ) : ChatStorage :=
  ⟨[1, 2, 3, 4, 5].map fun id => (longMessage n).row id, 5, .counting⟩

theorem escapeJsonString_letters (n : ℕ) :
    escapeJsonString (List.replicate n 0x78) = List.replicate n 0x78 := by
  have hletter : ∀ ch ∈ List.replicate n (0x78 : UInt8), escapeByte ch = [ch] := by
    intro ch hch
    rw [List.eq_of_mem_replicate hch]
    decide
  rw [escapeJsonString, List.flatMap_congr hletter, List.flatMap_singleton']

theorem longHistory_acceptable {n : ℕ} (hpos : 0 < n) (hn : n ≤ 60000) : (longHistory n).Acceptable := by
  have hascii : Utf8.Valid (List.replicate n 0x78) := by
    apply Utf8.valid_of_ascii
    intro b hb
    rw [List.eq_of_mem_replicate hb]
    decide
  have hbob : (escapeJsonString (ascii "bob")).length = 3 := by decide
  have hmessage : (longMessage n).Acceptable := by
    refine acceptable_privateMessage (by decide) (by decide) hascii ?_ ?_ 5
    · intro hnil
      rw [List.replicate_eq_nil_iff] at hnil
      omega
    · rw [escapeJsonString_letters, List.length_replicate, hbob]
      omega
  intro row hrow
  obtain ⟨id, -, rfl⟩ := List.mem_map.mp hrow
  exact ⟨id, longMessage n, rfl, hmessage⟩

/-- All five are on the page. -/
theorem load_longHistory (n : ℕ) :
    let messages := (Conversation.between (ascii "bob") (ascii "alice")).load (longHistory n)
      (parseHistoryLimit []) (parseBeforeTimestamp [])
    messages.length = 5 ∧ ∀ m ∈ messages, m.content = List.replicate n 0x78 := by
  have hall : ∀ row ∈ (longHistory n).rows, row.conversationType = ascii "private" ∧
      row.conversationId = ChatStorage.privateConversationId (ascii "bob") (ascii "alice") ∧
      row.content = List.replicate n 0x78 := by
    intro row hrow
    obtain ⟨id, -, rfl⟩ := List.mem_map.mp hrow
    exact ⟨rfl, ChatStorage.privateConversationId_comm (ascii "alice") (ascii "bob"), rfl⟩
  have hfilter : ((longHistory n).rows.filter fun row => row.conversationType = ascii "private" ∧
      row.conversationId = ChatStorage.privateConversationId (ascii "bob") (ascii "alice") ∧
      (parseBeforeTimestamp [] ≤ 0 ∨ row.createdAt < parseBeforeTimestamp [])) = (longHistory n).rows := by
    rw [List.filter_eq_self]
    intro row hrow
    obtain ⟨htype, hid, -⟩ := hall row hrow
    exact decide_eq_true ⟨htype, hid, .inl (by decide)⟩
  have hlimit : (ChatStorage.sanitizeLimit (parseHistoryLimit [])).toNat = 50 := by decide
  have hsorted : ((longHistory n).rows.insertionSort ChatStorage.newerFirst).length = 5 :=
    List.length_insertionSort _ _
  have hload : (Conversation.between (ascii "bob") (ascii "alice")).load (longHistory n)
      (parseHistoryLimit []) (parseBeforeTimestamp []) =
      (((longHistory n).rows.insertionSort ChatStorage.newerFirst).map
        ChatStorage.messageFromStatement).reverse := by
    rw [Conversation.load, ChatStorage.loadPrivateHistory, ChatStorage.loadHistory, hfilter, hlimit,
      List.take_of_length_le (by rw [hsorted]; omega)]
  dsimp only
  rw [hload]
  constructor
  · rw [List.length_reverse, List.length_map, hsorted]
  · intro m hm
    rw [List.mem_reverse] at hm
    obtain ⟨row, hrow, rfl⟩ := List.mem_map.mp hm
    obtain ⟨-, -, hcontent⟩ := hall row ((List.mem_insertionSort _).mp hrow)
    show ChatStorage.columnText row.content = _
    rw [hcontent, columnText_eq_self]
    intro hzero
    exact absurd (List.eq_of_mem_replicate hzero) (by decide)

theorem length_longHistory_ge (n : ℕ) :
    5 * n ≤ ((Conversation.between (ascii "bob") (ascii "alice")).historyLine (longHistory n) [] []).length := by
  obtain ⟨hlength, hcontent⟩ := load_longHistory n
  rw [Conversation.historyLine]
  generalize (Conversation.between (ascii "bob") (ascii "alice")).load (longHistory n) (parseHistoryLimit [])
    (parseBeforeTimestamp []) = messages at hlength hcontent
  have htexts : ∀ text ∈ messages.map appendPrivateMessageJson, n ≤ text.length := by
    intro text htext
    obtain ⟨m, hm, rfl⟩ := List.mem_map.mp htext
    have hfield : n ≤ (appendJsonStringField "content" m.content false).length := by
      rw [appendJsonStringField, jsonStringField, hcontent m hm, escapeJsonString_letters]
      simp only [List.length_append, List.length_cons, List.length_replicate]
      omega
    rw [appendPrivateMessageJson]
    simp only [List.length_append, List.length_cons]
    omega
  have hpage := Separators.length_intercalate_ge [comma] htexts
  rw [List.length_map, hlength] at hpage
  show 5 * n ≤ (buildPrivateHistoryResponse (ascii "alice") messages).length
  rw [buildPrivateHistoryResponse, buildHistoryResponse]
  simp only [List.length_append, List.length_cons]
  omega

/-- **Five messages of 60000 letters close the bridge.**  Alice sends them to bob, and he asks for their history
without a limit; a chunk ends in front of the newline of the response. -/
theorem long_history_closes_bridge :
    (longHistory 60000).Acceptable ∧ ∃ chunks : List Bytes,
      chunks.flatten = (Conversation.between (ascii "bob") (ascii "alice")).historyLine (longHistory 60000) [] [] ∧
      (Bridge.onChunks maxLineBytes (.idle []) chunks).sent =
        [Bridge.gatewayError "response line from TCP server is too large"] ∧
      (Bridge.onChunks maxLineBytes (.idle []) chunks).closed = some (1011, "TCP response line too large") := by
  have hacceptable : (longHistory 60000).Acceptable := longHistory_acceptable (by omega) le_rfl
  obtain ⟨text, hline, hnewline, -⟩ := exists_text_of_historyLine hacceptable
    (show isValidName (Conversation.between (ascii "bob") (ascii "alice")).name = true by decide) [] []
  have hlong : maxLineBytes < byteLength text := by
    have hlength := length_longHistory_ge 60000
    rw [hline, Utf8.encode_append, List.length_append] at hlength
    have hend : (Utf8.encode ['\n']).length = 1 := by decide
    rw [hend] at hlength
    show 256 * 1024 < (Utf8.encode text).length
    omega
  refine ⟨hacceptable, [Utf8.encode text, Utf8.encode ['\n']], ?_, ?_⟩
  · rw [hline, Utf8.encode_append]
    simp
  · rw [Bridge.onChunks_cut_before hnewline hlong]
    exact ⟨rfl, rfl⟩

end ChatService
