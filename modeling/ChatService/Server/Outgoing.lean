import ChatService.Common.Protocol
import ChatService.Server.ChatStorage

/-!
# What the server sends (`server/ChatServer.cc`, the helpers)

The objects and lines that the handlers build.  `Outgoing` keeps a line by what it was built from;
`Outgoing.line` are the bytes handed to `TcpConnection::send`.  Most lines are `makeJsonLine` of an
object; forwarded signaling and history pages are written field by field.
-/

namespace ChatService

open Byte

/-! ### Objects -/

/-- The body that `makeCallError` and `makeCallBusy` share. -/
def makeCallReply (type username callId reason : Bytes) : JsonObject :=
  ((((((∅ : JsonObject).insert (ascii "type") type).insert (ascii "from") (ascii "server")).insert
    (ascii "to") username).insert (ascii "call_id") callId).insert (ascii "reason") reason)

def makeCallError (username callId reason : Bytes) : JsonObject :=
  makeCallReply (ascii "call_error") username callId reason

def makeCallBusy (username callId reason : Bytes) : JsonObject :=
  makeCallReply (ascii "call_busy") username callId reason

def makeCallEvent (type username target callId reason : Bytes) : JsonObject :=
  let event := ((((∅ : JsonObject).insert (ascii "type") type).insert (ascii "from") username).insert
    (ascii "to") target).insert (ascii "call_id") callId
  if reason = [] then event else event.insert (ascii "reason") reason

/-- The event of `sendPrivate`. -/
def privateEvent (username message : Bytes) (messageId createdAt : ℤ) : JsonObject :=
  (((((∅ : JsonObject).insert (ascii "type") (ascii "private")).insert (ascii "from") username).insert
    (ascii "message") message).insert (ascii "id") (int64ToString messageId)).insert
    (ascii "created_at") (int64ToString createdAt)

/-- The response of `sendPrivate`. -/
def privateResponse (text target : Bytes) (messageId createdAt : ℤ) : JsonObject :=
  (((makeOkResponse text).insert (ascii "target") target).insert (ascii "id")
    (int64ToString messageId)).insert (ascii "created_at") (int64ToString createdAt)

/-- The event of `sendRoomMessage`. -/
def roomEvent (room username message : Bytes) (messageId createdAt : ℤ) : JsonObject :=
  ((((((∅ : JsonObject).insert (ascii "type") (ascii "room")).insert (ascii "room") room).insert
    (ascii "from") username).insert (ascii "message") message).insert (ascii "id")
    (int64ToString messageId)).insert (ascii "created_at") (int64ToString createdAt)

/-- The response of `sendOnlineUsers`. -/
def usersResponse (users : List Bytes) : JsonObject :=
  ((∅ : JsonObject).insert (ascii "type") (ascii "users")).insert (ascii "users") (joinList users)

/-! The fields by which a receiver knows what an object is. -/

theorem type_makeOkResponse (message : Bytes) :
    fieldOrEmpty (makeOkResponse message) "type" = ascii "ok" := by
  simp (disch := decide) only [makeOkResponse, fieldOrEmpty_insert_self, fieldOrEmpty_insert_of_ne]

theorem type_makeErrorResponse (message : Bytes) :
    fieldOrEmpty (makeErrorResponse message) "type" = ascii "error" := by
  simp (disch := decide) only [makeErrorResponse, fieldOrEmpty_insert_self, fieldOrEmpty_insert_of_ne]

theorem type_makeCallReply (type username callId reason : Bytes) :
    fieldOrEmpty (makeCallReply type username callId reason) "type" = type := by
  simp (disch := decide) only [makeCallReply, fieldOrEmpty_insert_self, fieldOrEmpty_insert_of_ne]

theorem type_privateEvent (username message : Bytes) (messageId createdAt : ℤ) :
    fieldOrEmpty (privateEvent username message messageId createdAt) "type" = ascii "private" := by
  simp (disch := decide) only [privateEvent, fieldOrEmpty_insert_self, fieldOrEmpty_insert_of_ne]

theorem type_privateResponse (text target : Bytes) (messageId createdAt : ℤ) :
    fieldOrEmpty (privateResponse text target messageId createdAt) "type" = ascii "ok" := by
  simp (disch := decide) only [privateResponse, makeOkResponse, fieldOrEmpty_insert_self,
    fieldOrEmpty_insert_of_ne]

theorem type_roomEvent (room username message : Bytes) (messageId createdAt : ℤ) :
    fieldOrEmpty (roomEvent room username message messageId createdAt) "type" = ascii "room" := by
  simp (disch := decide) only [roomEvent, fieldOrEmpty_insert_self, fieldOrEmpty_insert_of_ne]

theorem type_usersResponse (users : List Bytes) :
    fieldOrEmpty (usersResponse users) "type" = ascii "users" := by
  simp (disch := decide) only [usersResponse, fieldOrEmpty_insert_self, fieldOrEmpty_insert_of_ne]

/-- A call event names its type, its sender, its target and its call. -/
theorem makeCallEvent_fields (type username target callId reason : Bytes) :
    fieldOrEmpty (makeCallEvent type username target callId reason) "type" = type ∧
      fieldOrEmpty (makeCallEvent type username target callId reason) "from" = username ∧
      fieldOrEmpty (makeCallEvent type username target callId reason) "to" = target ∧
      fieldOrEmpty (makeCallEvent type username target callId reason) "call_id" = callId := by
  rw [makeCallEvent]
  split_ifs <;>
    simp (disch := decide) only [fieldOrEmpty_insert_self, fieldOrEmpty_insert_of_ne, and_self]

/-! ### Lines written field by field -/

/-- One field; `first` suppresses the comma. -/
def appendJsonStringField (key : String) (value : Bytes) (first : Bool) : Bytes :=
  (if first then [] else [comma]) ++ jsonStringField (ascii key) value

def appendJsonIntField (key : String) (value : ℤ) (first : Bool) : Bytes :=
  (if first then [] else [comma]) ++ quote :: escapeJsonString (ascii key) ++ [quote, colon] ++
    int64ToString value

/-- The forwarded line: the payload is pasted behind its name as it is. -/
def buildSignalingEvent (type username target callId payloadName rawPayload : Bytes) : Bytes :=
  lbrace :: appendJsonStringField "type" type true ++ appendJsonStringField "from" username false ++
    appendJsonStringField "to" target false ++ appendJsonStringField "call_id" callId false ++
    [comma, quote] ++ escapeJsonString payloadName ++ [quote, colon] ++ rawPayload ++
    [rbrace, newline]

def appendPrivateMessageJson (message : Message) : Bytes :=
  lbrace :: appendJsonIntField "id" message.id true ++
    appendJsonStringField "sender" message.sender false ++
    appendJsonStringField "receiver" message.receiver false ++
    appendJsonStringField "content" message.content false ++
    appendJsonIntField "created_at" message.createdAt false ++ [rbrace]

def appendRoomMessageJson (message : Message) : Bytes :=
  lbrace :: appendJsonIntField "id" message.id true ++
    appendJsonStringField "sender" message.sender false ++
    appendJsonStringField "room" message.roomId false ++
    appendJsonStringField "content" message.content false ++
    appendJsonIntField "created_at" message.createdAt false ++ [rbrace]

/-- A history page: the two responses differ in their type, in the name of the conversation and in how
a message is written. -/
def buildHistoryResponse (type : String) (nameKey : String) (name : Bytes)
    (append : Message → Bytes) (messages : List Message) : Bytes :=
  lbrace :: appendJsonStringField "type" (ascii type) true ++ appendJsonStringField nameKey name false ++
    ascii ",\"messages\":[" ++ List.intercalate [comma] (messages.map append) ++ [rbracket, rbrace, newline]

def buildPrivateHistoryResponse (peer : Bytes) (messages : List Message) : Bytes :=
  buildHistoryResponse "history_private_result" "peer" peer appendPrivateMessageJson messages

def buildRoomHistoryResponse (room : Bytes) (messages : List Message) : Bytes :=
  buildHistoryResponse "history_room_result" "room" room appendRoomMessageJson messages

/-! ### Request parameters of the history -/

def parseHistoryLimit (value : Bytes) : ℤ :=
  if value = [] then kDefaultHistoryLimit
  else
    match strtoll value with
    | none => kDefaultHistoryLimit
    | some parsed =>
      if parsed ≤ 0 then kDefaultHistoryLimit
      else if parsed > kMaxHistoryLimit then kMaxHistoryLimit
      else parsed

def parseBeforeTimestamp (value : Bytes) : ℤ :=
  if value = [] then 0
  else
    match strtoll value with
    | none => 0
    | some parsed => if parsed ≤ 0 then 0 else parsed

/-! ### Lines by what they are built from -/

inductive Outgoing where
  | json (object : JsonObject)
  | signaling (type username target callId payloadName rawPayload : Bytes)
  | privateHistory (peer : Bytes) (messages : List Message)
  | roomHistory (room : Bytes) (messages : List Message)
deriving DecidableEq

/-- The bytes handed to `TcpConnection::send`. -/
def Outgoing.line : Outgoing → Bytes
  | json object => makeJsonLine object
  | signaling type username target callId payloadName rawPayload =>
    buildSignalingEvent type username target callId payloadName rawPayload
  | privateHistory peer messages => buildPrivateHistoryResponse peer messages
  | roomHistory room messages => buildRoomHistoryResponse room messages

end ChatService
