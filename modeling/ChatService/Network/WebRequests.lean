import ChatService.Client.Conversations
import ChatService.Client.SocketMessages
import ChatService.Gateway.AttachBridge
import ChatService.Gateway.ReadBack

/-!
# What becomes of the requests of the web client

`sendMessage` (`web-client/app.js`) writes an object with `JSON.stringify`.  The gateway reads it, writes it anew and
sends the line to the server, which reads it with its own parser and calls the handler of its type.

A text here is one of characters: an unpaired surrogate, which a user could type as well, would be written as an escape
that the server refuses.

* `Sending` — a message of the browser, and the handler that it is meant for.
* `encode_text` — in UTF-8 its text is an object that is written field by field.
* `parseBrowserRequest_text` — the gateway sends the same text on.
* `handleRequest_object` — the server calls that handler.
* `requests_reach_their_handlers` — all together, for whatever a browser sends.
-/

namespace ChatService

namespace Web

open Byte LineFraming Gateway JsonGrammar

/-! ### What leaves the browser -/

/-- A member of a message. -/
inductive Payload where
  | text (content : JsString)
  | number (n : ℕ)

def Payload.value : Payload → JSON.Value
  | .text content => .string (Utf16.encode content)
  | .number n => .number (some (n : ℚ))

/-- The member as the server reads it. -/
def Payload.field (key : String) : Payload → Field
  | .text content => .string (ascii key) (Utf8.encode content)
  | .number n => .int (ascii key) n

/-- What the browser sends, calls apart: the login, when the socket is open, and then its requests.  Their texts have
no unpaired surrogates. -/
inductive Sending where
  | login (username : JsString)
  | request (request : Request)

namespace Sending

/-- The type that `sendMessage` is given. -/
def type : Sending → String
  | login _ => "login"
  | request .users => "users"
  | request (.privateMessage _ _) => "private"
  | request (.createRoom _) => "create_room"
  | request (.join _) => "join"
  | request (.leave _) => "leave"
  | request (.roomMsg _ _) => "room_msg"
  | request (.historyPrivate _ _) => "history_private"
  | request (.historyRoom _ _) => "history_room"

/-- What it is given with the type. -/
def payload : Sending → List (String × Payload)
  | login username => [("username", .text username)]
  | request .users => []
  | request (.privateMessage target message) => [("target", .text target), ("message", .text message)]
  | request (.createRoom room) => [("room", .text room)]
  | request (.join room) => [("room", .text room)]
  | request (.leave room) => [("room", .text room)]
  | request (.roomMsg room message) => [("room", .text room), ("message", .text message)]
  | request (.historyPrivate peer limit) => [("peer", .text peer), ("limit", .number limit)]
  | request (.historyRoom room limit) => [("room", .text room), ("limit", .number limit)]

/-- `{ type, ...payload }`. -/
def members (sending : Sending) : List (String × Payload) := ("type", .text sending.type.toList) :: sending.payload

def properties (sending : Sending) : List (List UInt16 × JSON.Value) :=
  sending.members.map fun (key, payload) => (Utf16.encode key.toList, payload.value)

/-- `JSON.stringify({ type, ...payload })`. -/
def text (sending : Sending) : JsString := JSON.stringify (.object sending.properties)

/-- The members as the server reads them. -/
def fields (sending : Sending) : List Field := sending.members.map fun (key, payload) => payload.field key

def object (sending : Sending) : JsonObject :=
  JsonObject.bindAll ∅ (sending.fields.map fun field => (field.key, field.value))

/-- The handler that it is meant for.  A history is asked for from its end. -/
def handler (session : Conn) : Sending → Handler Unit
  | login username => ChatService.login session (Utf8.encode username)
  | request .users => sendOnlineUsers session
  | request (.privateMessage target message) => sendPrivate session (Utf8.encode target) (Utf8.encode message)
  | request (.createRoom room) => ChatService.createRoom session (Utf8.encode room)
  | request (.join room) => joinRoom session (Utf8.encode room)
  | request (.leave room) => leaveRoom session (Utf8.encode room)
  | request (.roomMsg room message) => sendRoomMessage session (Utf8.encode room) (Utf8.encode message)
  | request (.historyPrivate peer limit) => sendPrivateHistory session (Utf8.encode peer) (int64ToString limit) []
  | request (.historyRoom room limit) => sendRoomHistory session (Utf8.encode room) (int64ToString limit) []

/-- The only number is the limit of a history. -/
def Usual (sending : Sending) : Prop := ∀ key n, (key, .number n) ∈ sending.members → n = 50

theorem usual_of_plain {request : Request} (h : request.Plain) : (Sending.request request).Usual := by
  cases request with
  | historyPrivate peer limit => exact h.elim
  | historyRoom room limit => exact h.elim
  | _ => simp [Usual, members, payload]

theorem usual_historyRequest (type : ConversationType) (id : JsString) :
    (Sending.request (historyRequest type id)).Usual := by
  cases type <;> simp [Usual, members, payload, historyRequest]

theorem usual_login (username : JsString) : (login username).Usual := by simp [Usual, members, payload]

end Sending

/-! ### The requests of a run -/

section

variable {clock : ℕ → ℤ} {Told : ConversationType → JsString → Message → Prop} {s s' : ChatState}

theorem Change.usual (hchange : Change clock Told s s') (h : ∀ request ∈ s.sent, (Sending.request request).Usual) :
    ∀ request ∈ s'.sent, (Sending.request request).Usual := by
  cases hchange with
  | other hconversations hsent hsequence hcurrent => rwa [hsent]
  | @store type id message markUnread htold =>
    obtain ⟨t, stored, hstore, hhanded⟩ := @exists_handed clock s type id message markUnread
    have hsent : (t.storeMessage type id stored markUnread).sent = s.sent := by
      rw [ChatState.storeMessage]
      split_ifs <;> exact hhanded.sent
    rwa [hstore, hsent]
  | send hplain =>
    exact List.forall_mem_append.mpr ⟨h, List.forall_mem_singleton.mpr (Sending.usual_of_plain hplain)⟩
  | @ask type id requests hfirst hrequests =>
    refine List.forall_mem_append.mpr ⟨h, ?_⟩
    rcases hrequests with rfl | rfl
    · exact List.forall_mem_singleton.mpr (Sending.usual_historyRequest type id)
    · exact fun request hrequest => absurd hrequest List.not_mem_nil
  | select type id => exact h

theorem Changes.usual (hchanges : Changes clock Told s s') (h : ∀ request ∈ s.sent, (Sending.request request).Usual) :
    ∀ request ∈ s'.sent, (Sending.request request).Usual := by
  induction hchanges with
  | refl => exact h
  | tail _ hchange ih => exact hchange.usual ih

end

/-- All that a browser has sent. -/
def sendings (pendingUsername : JsString) (s : ChatState) : List Sending :=
  .login pendingUsername :: s.sent.map .request

theorem usual_sendings (clock : ℕ → ℤ) (pendingUsername : JsString) (inputs : List Input) :
    ∀ sending ∈ sendings pendingUsername (run clock {} inputs), sending.Usual := by
  have hchanges : Changes clock (fun _ _ _ => True) {} (run clock {} inputs) :=
    changes_run fun _ _ _ _ _ _ _ _ => trivial
  have hrequests := hchanges.usual fun request hrequest => absurd hrequest List.not_mem_nil
  rw [sendings, List.forall_mem_cons, List.forall_mem_map]
  exact ⟨Sending.usual_login pendingUsername, hrequests⟩

namespace Sending

/-! ### The text -/

/-- The keys of all messages. -/
def allKeys : List String := ["type", "username", "target", "peer", "room", "message", "limit"]

theorem keys_sublist (sending : Sending) : (sending.members.map Prod.fst).Sublist allKeys := by
  cases sending with
  | login username => exact (by decide : ["type", "username"].Sublist allKeys)
  | request request =>
    cases request with
    | users => exact (by decide : ["type"].Sublist allKeys)
    | privateMessage target message => exact (by decide : ["type", "target", "message"].Sublist allKeys)
    | createRoom room => exact (by decide : ["type", "room"].Sublist allKeys)
    | join room => exact (by decide : ["type", "room"].Sublist allKeys)
    | leave room => exact (by decide : ["type", "room"].Sublist allKeys)
    | roomMsg room message => exact (by decide : ["type", "room", "message"].Sublist allKeys)
    | historyPrivate peer limit => exact (by decide : ["type", "peer", "limit"].Sublist allKeys)
    | historyRoom room limit => exact (by decide : ["type", "room", "limit"].Sublist allKeys)

/-- The types of all messages. -/
def allTypes : List String :=
  ["login", "users", "private", "create_room", "join", "leave", "room_msg", "history_private", "history_room"]

theorem type_mem (sending : Sending) : sending.type ∈ allTypes := by
  cases sending with
  | login username => simp [type, allTypes]
  | request request => cases request <;> simp [type, allTypes]

/-- What holds of all keys holds of those of a message. -/
theorem forall_keys {P : String → Prop} (h : ∀ key ∈ allKeys, P key) (sending : Sending) :
    ∀ member ∈ sending.members, P member.1 :=
  fun member hmember => h member.1 (sending.keys_sublist.subset (List.mem_map_of_mem hmember))

theorem ascii_keys : ∀ key ∈ allKeys, AsciiLiteral key := by decide

/-- No key is an array index, so that `JSON.stringify` keeps their order. -/
theorem ordered_properties (sending : Sending) : JSON.ordered sending.properties = sending.properties := by
  have hall : ∀ key ∈ allKeys, JSON.arrayIndex? (Utf16.encode key.toList) = none := by decide
  have hnone : ∀ property ∈ sending.properties, JSON.arrayIndex? property.1 = none := by
    rw [properties, List.forall_mem_map]
    exact forall_keys hall sending
  have hfirst : sending.properties.filter (fun property => (JSON.arrayIndex? property.1).isSome) = [] := by
    rw [List.filter_eq_nil_iff]
    intro property hproperty
    simp [hnone property hproperty]
  have hlast : sending.properties.filter (fun property => (JSON.arrayIndex? property.1).isNone) =
      sending.properties := by
    rw [List.filter_eq_self]
    intro property hproperty
    simp [hnone property hproperty]
  rw [JSON.ordered, hfirst, hlast]
  rfl

theorem nodup_properties (sending : Sending) : (sending.properties.map Prod.fst).Nodup := by
  have hall : (allKeys.map fun key => Utf16.encode key.toList).Nodup := by decide
  have hkeys : sending.properties.map Prod.fst =
      (sending.members.map Prod.fst).map fun key => Utf16.encode key.toList := by
    simp [properties, Function.comp_def]
  rw [hkeys]
  exact (sending.keys_sublist.map _).nodup hall

variable {sending : Sending}

theorem text_eq (sending : Sending) : sending.text =
    JSON.enclose '\x7b' '\x7d' (sending.properties.map JSON.member) := by
  rw [text, JSON.stringify_object, ordered_properties]

theorem numberText_fifty : JSON.numberText ((50 : ℕ) : ℚ) = JSON.intText 50 := by decide +kernel

/-- A member is written as the server writes its field. -/
theorem encode_member (h : sending.Usual) {key : String} {payload : Payload}
    (hmember : (key, payload) ∈ sending.members) :
    Utf8.encode (JSON.member (Utf16.encode key.toList, payload.value)) = (payload.field key).line := by
  have hascii : AsciiLiteral key := forall_keys ascii_keys sending _ hmember
  have hkey : Utf8.encode (JSON.quote (Utf16.encode key.toList)) =
      Byte.quote :: escapeJsonString (ascii key) ++ [Byte.quote] := by
    rw [JSON.encode_quote (Utf16.decode_encode _), encode_literal hascii]
  rw [JSON.encode_member, hkey]
  cases payload with
  | text text =>
    have htext : Utf8.encode (JSON.stringify (.string (Utf16.encode text))) =
        Byte.quote :: escapeJsonString (Utf8.encode text) ++ [Byte.quote] := JSON.encode_quote (Utf16.decode_encode _)
    rw [Payload.value, htext]
    rfl
  | number value =>
    obtain rfl := h key value hmember
    have hnumber : Utf8.encode (JSON.intText 50) = int64ToString 50 := by decide
    rw [Payload.value, JSON.stringify, numberText_fifty, hnumber]
    rfl

/-- **The text in UTF-8** is an object that is written field by field. -/
theorem encode_text (h : sending.Usual) : Utf8.encode sending.text = objectText sending.fields := by
  have hlines : (sending.properties.map JSON.member).map Utf8.encode = sending.fields.map Field.line := by
    rw [properties, fields, List.map_map, List.map_map, List.map_map]
    exact List.map_congr_left fun member hmember => encode_member h hmember
  rw [text_eq, JSON.encode_enclose, hlines]
  rfl

/-! ### The gateway -/

theorem reads_text (h : sending.Usual) : JSON.Reads sending.text (.object sending.properties) := by
  rw [text_eq]
  refine JSON.reads_object ?_ (nodup_properties sending)
  rw [List.forall₂_map_left_iff, List.forall₂_same, properties, List.forall_mem_map]
  rintro ⟨key, payload⟩ hmember
  refine ⟨key.toList, JSON.stringify payload.value, rfl, rfl, ?_⟩
  cases payload with
  | text text => exact JSON.reads_quote text
  | number value =>
    obtain rfl := h key value hmember
    have hround : Binary64.round ((50 : ℤ) : ℚ) = some ((50 : ℕ) : ℚ) := Binary64.round_intCast (by decide)
    have hreads := JSON.reads_intText 50
    rw [hround, ← numberText_fifty] at hreads
    exact hreads

theorem trim_text (sending : Sending) : Words.trim isJsSpace sending.text = sending.text := by
  have hleft : isJsSpace '\x7b' = false := by decide
  have hright : ¬isJsSpace '\x7d' = true := by decide
  rw [text_eq, JSON.enclose, Words.trim, List.cons_append, List.dropWhile_cons_of_neg (by simp [hleft]),
    ← List.cons_append, List.rdropWhile_concat_neg _ _ _ hright]

theorem trim_type (sending : Sending) : Words.trim isJsSpaceUnit (Utf16.encode sending.type.toList) ≠ [] := by
  have hall : ∀ type ∈ allTypes, Words.trim isJsSpaceUnit (Utf16.encode type.toList) ≠ [] := by decide
  exact hall _ sending.type_mem

/-- **The gateway sends the same text on.** -/
theorem parseBrowserRequest_text (syntaxError : JsString → JsString) (h : sending.Usual) :
    parseBrowserRequest syntaxError sending.text false = .line (sending.text ++ ['\n']) := by
  have hne : sending.text ≠ [] := by
    rw [text_eq]
    exact List.cons_ne_nil _ _
  have htype : sending.properties.lookup (Utf16.encode "type".toList) =
      some (.string (Utf16.encode sending.type.toList)) := List.lookup_cons_self
  rw [parseBrowserRequest, if_neg (by simp)]
  simp only [trim_text, if_neg hne, JSON.parse_of_reads (reads_text h), htype, if_neg sending.trim_type]
  rfl

/-! ### The server -/

theorem parse_text (h : sending.Usual) :
    parseJsonObject (Utf8.encode sending.text) = .ok sending.object (Utf8.encode sending.text).length := by
  rw [encode_text h]
  exact parse_objectText sending.fields

theorem onLine_text (h : sending.Usual) :
    onLine (Utf8.encode sending.text) = [.dispatch (Utf8.encode sending.text) sending.object] := by
  have hreturn : (Utf8.encode sending.text).getLast? ≠ some carriageReturn :=
    fun hlast => absurd (JSON.stringify_visible _ _ (List.mem_of_getLast? hlast)) (by decide)
  have hne : Utf8.encode sending.text ≠ [] := by
    rw [encode_text h]
    exact List.cons_ne_nil _ _
  have hparse := parse_text h
  generalize Utf8.encode sending.text = body at hreturn hne hparse ⊢
  rw [onLine, stripCarriageReturn, if_neg hreturn]
  show ite _ _ _ = _
  rw [if_neg hne, hparse]

theorem fields_keys (sending : Sending) :
    (sending.fields.map fun field => (field.key, field.value)).map Prod.fst =
      (sending.members.map Prod.fst).map ascii := by
  rw [fields, List.map_map, List.map_map, List.map_map]
  refine List.map_congr_left fun member hmember => ?_
  obtain ⟨key, payload⟩ := member
  cases payload <;> rfl

/-- A field that was written is read. -/
theorem field_of_mem {key : String} {p : Payload} (h : (key, p) ∈ sending.members) :
    fieldOrEmpty sending.object key = (p.field key).value := by
  have hall : (allKeys.map ascii).Nodup := by decide
  have hnodup := (sending.keys_sublist.map ascii).nodup hall
  rw [← fields_keys] at hnodup
  have hmem : (ascii key, (p.field key).value) ∈ sending.fields.map fun field => (field.key, field.value) := by
    rw [fields, List.map_map]
    refine List.mem_map.mpr ⟨(key, p), h, ?_⟩
    cases p <;> rfl
  rw [fieldOrEmpty, object, JsonObject.getElem?_bindAll_of_mem hnodup hmem]
  rfl

/-- No other field is there. -/
theorem field_of_not_mem {key : String} (h : ascii key ∉ allKeys.map ascii) :
    fieldOrEmpty sending.object key = [] := by
  have habsent : lastBinding (sending.fields.map fun field => (field.key, field.value)) (ascii key) = none := by
    rw [lastBinding, List.lookup_eq_none_iff]
    intro binding hbinding
    have hkey : binding.1 ∈ allKeys.map ascii := by
      refine (sending.keys_sublist.map ascii).subset ?_
      rw [← fields_keys]
      exact List.mem_map_of_mem (List.mem_reverse.mp hbinding)
    rw [bne_iff_ne]
    rintro heq
    exact h (heq ▸ hkey)
  rw [fieldOrEmpty, object, JsonObject.getElem?_bindAll, habsent]
  simp

theorem beforeText_object (sending : Sending) : beforeText sending.object = [] := by
  rw [beforeText, field_of_not_mem (by decide), field_of_not_mem (by decide), field_of_not_mem (by decide),
    if_neg (by simp), if_neg (by simp)]

theorem type_object (sending : Sending) : fieldOrEmpty sending.object "type" = ascii sending.type := by
  have hall : ∀ type ∈ allTypes, AsciiLiteral type := by decide
  rw [field_of_mem (p := .text sending.type.toList) List.mem_cons_self, ← encode_literal (hall _ sending.type_mem)]
  rfl

/-- **The server calls the handler** that the message is meant for. -/
theorem handleRequest_object (session : Conn) (sending : Sending) :
    handleRequest session sending.object = sending.handler session := by
  have hbefore := beforeText_object sending
  have htype := type_object sending
  cases sending with
  | login username =>
    rw [handleRequest_login htype,
      field_of_mem (p := .text username) (by simp [members, payload])]
    rfl
  | request request =>
    cases request with
    | users => exact handleRequest_users htype
    | privateMessage target message =>
      rw [handleRequest_private htype,
        field_of_mem (p := .text target) (by simp [members, payload]),
        field_of_mem (p := .text message) (by simp [members, payload])]
      rfl
    | createRoom room =>
      rw [handleRequest_createRoom htype,
        field_of_mem (p := .text room) (by simp [members, payload])]
      rfl
    | join room =>
      rw [handleRequest_join htype,
        field_of_mem (p := .text room) (by simp [members, payload])]
      rfl
    | leave room =>
      rw [handleRequest_leave htype,
        field_of_mem (p := .text room) (by simp [members, payload])]
      rfl
    | roomMsg room message =>
      rw [handleRequest_roomMsg htype,
        field_of_mem (p := .text room) (by simp [members, payload]),
        field_of_mem (p := .text message) (by simp [members, payload])]
      rfl
    | historyPrivate peer limit =>
      rw [handleRequest_historyPrivate htype, hbefore,
        field_of_mem (p := .text peer) (by simp [members, payload]),
        field_of_mem (p := .number limit) (by simp [members, payload])]
      rfl
    | historyRoom room limit =>
      rw [handleRequest_historyRoom htype, hbefore,
        field_of_mem (p := .text room) (by simp [members, payload]),
        field_of_mem (p := .number limit) (by simp [members, payload])]
      rfl

end Sending

/-! ### The whole way -/

/-- The messages that a bridge gets from the browser, and whether they are binary. -/
def messagesOf (events : List SocketEvent) : List (JsString × Bool) :=
  events.filterMap fun
    | .wsMessage data isBinary => some (data, isBinary)
    | _ => none

theorem browserLines_eq (syntaxError : JsString → JsString) (events : List SocketEvent) :
    Gateway.Session.browserLines syntaxError events =
      (messagesOf events).filterMap fun message =>
        Gateway.Session.browserLine syntaxError (.wsMessage message.1 message.2) := by
  rw [Gateway.Session.browserLines, messagesOf, List.filterMap_filterMap]
  refine List.filterMap_congr fun event _ => ?_
  cases event <;> rfl

theorem browserLine_text (syntaxError : JsString → JsString) {sending : Sending} (husual : sending.Usual)
    (hsize : byteLength sending.text ≤ maxPayloadBytes) :
    Gateway.Session.browserLine syntaxError (.wsMessage sending.text false) = some (sending.text ++ ['\n']) := by
  rw [Gateway.Session.browserLine, if_pos hsize, Sending.parseBrowserRequest_text syntaxError husual]

/-- The lines of a bridge whose browser sends these. -/
theorem browserLines_of_sendings (syntaxError : JsString → JsString) {events : List SocketEvent}
    {sent : List Sending} (hevents : messagesOf events = sent.map fun sending => (sending.text, false))
    (husual : ∀ sending ∈ sent, sending.Usual) (hsize : ∀ sending ∈ sent, byteLength sending.text ≤ maxPayloadBytes) :
    Gateway.Session.browserLines syntaxError events = sent.map fun sending => sending.text ++ ['\n'] := by
  rw [browserLines_eq, hevents, List.filterMap_map, ← List.filterMap_eq_map]
  refine List.filterMap_congr fun sending hsending => ?_
  rw [Function.comp_apply, Function.comp_apply]
  exact browserLine_text syntaxError (husual sending hsending) (hsize sending hsending)

/-- **The server handles what arrives**, in order, however it is cut. -/
theorem serve_sendings {sent : List Sending} (husual : ∀ sending ∈ sent, sending.Usual)
    (hsize : ∀ sending ∈ sent, byteLength sending.text ≤ maxPayloadBytes) {reads : List Bytes}
    (hreads : reads.flatten = Utf8.encode (sent.map fun sending => sending.text ++ ['\n']).flatten) :
    serve reads = (⟨[], false⟩,
      sent.map fun sending => .dispatch (Utf8.encode sending.text) sending.object) := by
  have hjoin : Utf8.encode (sent.map fun sending => sending.text ++ ['\n']).flatten =
      join newline (sent.map fun sending => Utf8.encode sending.text) := by
    clear hreads husual hsize
    induction sent with
    | nil => rfl
    | cons sending sent ih =>
      rw [List.map_cons, List.flatten_cons, Utf8.encode_append, ih, List.map_cons, join_cons, Utf8.encode_append,
        List.append_assoc]
      rfl
  have hnewline : ∀ body ∈ sent.map fun sending => Utf8.encode sending.text, newline ∉ body := by
    rw [List.forall_mem_map]
    exact fun sending _ hmem => absurd (JSON.stringify_visible _ _ hmem) (by decide)
  have hshort : ∀ body ∈ sent.map fun sending => Utf8.encode sending.text, body.length ≤ kMaxRequestLineBytes := by
    have hlimit : maxPayloadBytes = kMaxRequestLineBytes := rfl
    rw [List.forall_mem_map, ← hlimit]
    exact hsize
  have hreact : (sent.map fun sending => Utf8.encode sending.text).flatMap onLine =
      sent.map fun sending => .dispatch (Utf8.encode sending.text) sending.object := by
    rw [List.flatMap_map, List.map_eq_flatMap]
    exact List.flatMap_congr fun sending hsending => Sending.onLine_text (husual sending hsending)
  have hrun := requestFramer.run_join hnewline hshort (hreads.trans hjoin)
  rw [serve_eq_run, hrun, ← hreact]
  rfl

/-- **What a browser sends reaches its handlers.**  The user logs in and does whatever they like, with texts that have
no unpaired surrogates, and the bridge gets what the browser has sent so far, among whatever else happens to its
sockets.  If no message is longer than the gateway takes, no more than a hundred come before the connection to the
server is made, and nothing ends it, then the server calls for each message, in order, the handler that it is meant
for, with the texts that the browser has sent, however the bytes arrive. -/
theorem requests_reach_their_handlers (clock : ℕ → ℤ) (pendingUsername : JsString) (inputs : List Input)
    (syntaxError : JsString → JsString) {before after : List SocketEvent} {sent : List Sending}
    (hsent : sent <+: sendings pendingUsername (run clock {} inputs))
    (hevents : messagesOf (before ++ .tcpConnect :: after) = sent.map fun sending => (sending.text, false))
    (hsize : ∀ sending ∈ sent, byteLength sending.text ≤ maxPayloadBytes)
    (hroom : (messagesOf before).length ≤ maxQueuedMessages) (hopen : ∀ hadError, .tcpClose hadError ∉ after)
    (hstanding : ¬(Gateway.Session.run syntaxError (before ++ .tcpConnect :: after)).Gone) {reads : List Bytes}
    (hreads : reads.flatten =
      Utf8.encode (Gateway.Session.run syntaxError (before ++ .tcpConnect :: after)).written.flatten) :
    ∃ reactions, serve reads = (⟨[], false⟩, reactions) ∧
      ∀ session, reactions.map (onReaction session) = sent.map (Sending.handler session) := by
  have husual : ∀ sending ∈ sent, sending.Usual :=
    fun sending hsending => usual_sendings clock pendingUsername inputs sending (hsent.subset hsending)
  have hlines := browserLines_of_sendings syntaxError hevents husual hsize
  have hshort : ∀ line ∈ Gateway.Session.browserLines syntaxError (before ++ .tcpConnect :: after),
      byteLength line ≤ maxLineBytes := by
    rw [hlines, List.forall_mem_map]
    intro sending hsending
    have hline : byteLength (sending.text ++ ['\n']) = byteLength sending.text + 1 := Bridge.byteLength_append _ _
    have hfit := hsize sending hsending
    rw [hline]
    simp only [maxPayloadBytes, maxLineBytes] at hfit ⊢
    omega
  have hwaiting : (Gateway.Session.browserLines syntaxError before).length ≤ maxQueuedMessages := by
    rw [browserLines_eq]
    exact (List.length_filterMap_le _ _).trans hroom
  rw [Gateway.Session.written_of_connected hshort hwaiting hopen hstanding, hlines] at hreads
  refine ⟨_, serve_sendings husual hsize hreads, fun session => ?_⟩
  rw [List.map_map]
  exact List.map_congr_left fun sending _ => Sending.handleRequest_object session sending

/-- Alice has logged in, opens the conversation with bob and writes to him. -/
def aliceWrites : List Input :=
  [.message [("type".toList, .string "ok".toList), ("message".toList, .string "logged in as alice".toList)],
    .selectConversation .PRIVATE "bob".toList, .sendCurrentMessage "hello".toList]

def aliceSends : List Sending :=
  [.login "alice".toList, .request .users, .request (.historyPrivate "bob".toList 50),
    .request (.privateMessage "bob".toList "hello".toList)]

def beforeConnect : List SocketEvent := [.wsMessage (Sending.text (.login "alice".toList)) false]

def afterConnect : List SocketEvent :=
  [.wsMessage (Sending.text (.request .users)) false,
    .wsMessage (Sending.text (.request (.historyPrivate "bob".toList 50))) false,
    .wsMessage (Sending.text (.request (.privateMessage "bob".toList "hello".toList))) false]

/-- Her login waits for the connection; then the server handles all four messages. -/
theorem alice_is_heard : ∃ reactions,
    serve [Utf8.encode (Gateway.Session.run id (beforeConnect ++ .tcpConnect :: afterConnect)).written.flatten] =
      (⟨[], false⟩, reactions) ∧
      ∀ session, reactions.map (onReaction session) = aliceSends.map (Sending.handler session) := by
  have hrequests : (run (fun _ => 0) {} aliceWrites).sent =
      [.users, .historyPrivate "bob".toList 50, .privateMessage "bob".toList "hello".toList] := by decide +kernel
  have hsent : aliceSends <+: sendings "alice".toList (run (fun _ => 0) {} aliceWrites) := by
    rw [sendings, hrequests]
    exact List.prefix_rfl
  have hevents : messagesOf (beforeConnect ++ .tcpConnect :: afterConnect) =
      aliceSends.map fun sending => (sending.text, false) := rfl
  have hsize : ∀ text ∈ aliceSends.map Sending.text, byteLength text ≤ maxPayloadBytes := by decide +kernel
  have hstanding : ¬(Gateway.Session.run id (beforeConnect ++ .tcpConnect :: afterConnect)).Gone := by
    rw [Gateway.Session.Gone]
    decide +kernel
  exact requests_reach_their_handlers (fun _ => 0) "alice".toList aliceWrites id hsent hevents
    (List.forall_mem_map.mp hsize) (by decide) (fun hadError => by simp [afterConnect]) hstanding (by simp)

end Web

end ChatService
