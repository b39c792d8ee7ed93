import ChatService.Foundation.Doubles
import ChatService.Gateway.HandleTcpText
import Mathlib.Data.List.Lex
import Mathlib.Data.List.Sort
import Mathlib.Data.Rat.Defs

/-!
# The conversations of the web client (`web-client/app.js`)

What the browser keeps about users, rooms and messages, and the handlers of `app.js` that change it, once the
socket has been opened.  What happens in calls is in `CallState`; here they only report an error when one of their
messages cannot be sent.  What is only shown (lists, titles, status texts) is left out.

An object of the server is read member by member.  The members that must be texts are texts, and numbers are
integers, written as JSON numbers or as strings of digits.  Keys are ASCII, so that `localeCompare` is the
order of their characters.  Each `Date.now()` takes the next reading of the clock.
-/

namespace ChatService

namespace Web

open Gateway (JsString isJsSpace)

/-! ### Values -/

/-- A member of a parsed object: a finite double, or something else. -/
inductive JsValue where
  | undefined
  | number (value : ℚ)
  | string (text : JsString)
  | array (values : List (List (JsString × JsValue)))

abbrev JsObject := List (JsString × JsValue)

/-- `object.key`. -/
def member (object : JsObject) (key : String) : JsValue := (object.lookup key.toList).getD .undefined

/-- `object.key || ''`. -/
def textOf (object : JsObject) (key : String) : JsString :=
  match member object key with
  | .string text => text
  | _ => []

/-- What counts as true in a condition. -/
def JsValue.truthy : JsValue → Bool
  | .undefined => false
  | .number x => x ≠ 0
  | .string text => text ≠ []
  | .array _ => true

/-- `Number(text)` for an optional sign and digits; an empty text is 0, any other text is no number. -/
def numberOfText (text : JsString) : Option ℚ :=
  let digits (sign : ℤ) (ds : JsString) : Option ℚ :=
    if ds ≠ [] ∧ ds.all Char.isDigit then some (Doubles.round (sign * Nat.ofDigitChars 10 ds 0)) else none
  match Words.trim isJsSpace text with
  | [] => some 0
  | '-' :: ds => digits (-1) ds
  | '+' :: ds => digits 1 ds
  | ds => digits 1 ds

/-- `Number(value || 0)`; `none` is `NaN`. -/
def JsValue.toNumber : JsValue → Option ℚ
  | .number x => some x
  | .string text => numberOfText text
  | .undefined => some 0
  | .array _ => none

/-- A value in a template string.  Numbers are integers below `10 ^ 21`. -/
def JsValue.toText : JsValue → JsString
  | .undefined => "undefined".toList
  | .number x => Doubles.shortestText x.num
  | .string text => text
  | .array _ => "[object Object]".toList

/-! ### State -/

/-- `CONVERSATION`. -/
inductive ConversationType where
  | PRIVATE
  | ROOM
deriving DecidableEq, Repr

def ConversationType.text : ConversationType → JsString
  | PRIVATE => "private".toList
  | ROOM => "room".toList

/-- `MESSAGE_KIND`. -/
inductive MessageKind where
  | MINE
  | OTHER
  | SYSTEM
  | ERROR
deriving DecidableEq, Repr

/-- A message as it is handed to `addMessageToConversation`; nobody sets `dedupeKey` before. -/
structure Message where
  id : JsValue := .undefined
  sender : JsString
  content : JsString
  createdAt : JsValue := .undefined
  kind : MessageKind

/-- A message of a conversation. -/
structure Stored extends Message where
  dedupeKey : JsString

structure Conversation where
  messages : List Stored := []
  messageKeys : List JsString := []
  historyRequested : Bool := false
  unreadCount : ℕ := 0

inductive RoomMode where
  | create
  | join
  | leave
deriving DecidableEq, Repr

/-- What `sendMessage` sends. -/
inductive Request where
  | users
  | privateMessage (target message : JsString)
  | createRoom (room : JsString)
  | join (room : JsString)
  | leave (room : JsString)
  | roomMsg (room message : JsString)
  | historyPrivate (peer : JsString) (limit : ℕ)
  | historyRoom (room : JsString) (limit : ℕ)
deriving DecidableEq

/-- `state`, and what has left the browser. -/
structure ChatState where
  username : JsString := []
  loggedIn : Bool := false
  socketOpen : Bool := true
  current : Option (ConversationType × JsString) := none
  users : List JsString := []
  rooms : List JsString := []
  conversations : JsString → Conversation := fun _ => {}
  pendingRoomAction : Option (JsString × RoomMode) := none
  roomDialogMode : Option RoomMode := none
  localMessageSequence : ℕ := 0
  /-- what was sent, calls apart, latest last -/
  sent : List Request := []
  /-- how many readings of the clock were taken -/
  readings : ℕ := 0

def conversationKey (type : ConversationType) (id : JsString) : JsString := type.text ++ ':' :: id

/-- `set.add(value)`. -/
def addToSet (set : List JsString) (value : JsString) : List JsString :=
  if value ∈ set then set else set ++ [value]

/-- Whether the comparison of `messages.sort` gives a positive number.  When a time is no number, the difference
is none either, and counts as 0. -/
def isAfter (left right : Stored) : Bool :=
  match left.createdAt.toNumber, right.createdAt.toNumber with
  | some leftTime, some rightTime =>
    if leftTime ≠ rightTime then leftTime > rightTime else right.dedupeKey < left.dedupeKey
  | _, _ => false

def dbKey (id : JsValue) : JsString := "db:".toList ++ id.toText

def localKey (sequence : ℕ) : JsString := "local:".toList ++ Nat.toDigits 10 sequence

/-- A conversation with one more message, sorted. -/
def Conversation.push (conversation : Conversation) (stored : Stored) (unread : ℕ) : Conversation :=
  { conversation with
    messageKeys := stored.dedupeKey :: conversation.messageKeys
    messages := (conversation.messages ++ [stored]).insertionSort fun x y => isAfter x y = false
    unreadCount := conversation.unreadCount + unread }

namespace ChatState

variable (clock : ℕ → ℤ)

def setConversation (s : ChatState) (key : JsString) (conversation : Conversation) : ChatState :=
  { s with conversations := Function.update s.conversations key conversation }

def isActiveConversation (s : ChatState) (type : ConversationType) (id : JsString) : Bool := s.current = some (type, id)

/-- `createdAt || Math.floor(Date.now() / 1000)`. -/
def stampOf (s : ChatState) (createdAt : JsValue) : JsValue × ChatState :=
  if createdAt.truthy then (createdAt, s) else (.number (clock s.readings), { s with readings := s.readings + 1 })

/-- `id ? db:${id} : nextLocalMessageKey()`. -/
def keyOf (s : ChatState) (id : JsValue) : JsString × ChatState :=
  if id.truthy then (dbKey id, s)
  else (localKey (s.localMessageSequence + 1), { s with localMessageSequence := s.localMessageSequence + 1 })

/-- What is added to `conversation.unreadCount`. -/
def newUnread (s : ChatState) (type : ConversationType) (id : JsString) (markUnread : Bool) : ℕ :=
  if s.isActiveConversation type id = false ∧ markUnread then 1 else 0

/-- The second half of `addMessageToConversation`. -/
def storeMessage (s : ChatState) (type : ConversationType) (id : JsString) (stored : Stored) (markUnread : Bool) :
    ChatState :=
  let key := conversationKey type id
  if stored.dedupeKey ∈ (s.conversations key).messageKeys then s
  else s.setConversation key ((s.conversations key).push stored (s.newUnread type id markUnread))

def addMessageToConversation (s : ChatState) (type : ConversationType) (id : JsString) (message : Message)
    (markUnread : Bool) : ChatState :=
  let (createdAt, s) := s.stampOf clock message.createdAt
  let (dedupeKey, s) := s.keyOf message.id
  s.storeMessage type id { message with createdAt, dedupeKey } markUnread

/-- `appendSystemMessage` and `appendErrorMessage`. -/
def appendMessage (s : ChatState) (sender text : JsString) (kind : MessageKind) : ChatState :=
  match s.current with
  | none => s
  | some (type, id) => s.addMessageToConversation clock type id { sender, content := text, kind } false

def appendSystemMessage (s : ChatState) (text : JsString) : ChatState :=
  s.appendMessage clock "System".toList text .SYSTEM

def appendErrorMessage (s : ChatState) (text : JsString) : ChatState :=
  s.appendMessage clock "Error".toList text .ERROR

/-- `sendMessage`; the answer is whether the socket was open. -/
def sendMessage (s : ChatState) (request : Request) : Bool × ChatState :=
  if s.socketOpen then (true, { s with sent := s.sent ++ [request] })
  else (false, s.appendErrorMessage clock "WebSocket is not connected".toList)

/-- `sendMessage`, for a message about a call. -/
def sendCallMessage (s : ChatState) : ChatState :=
  if s.socketOpen then s else s.appendErrorMessage clock "WebSocket is not connected".toList

def requestHistoryIfNeeded (s : ChatState) (type : ConversationType) (id : JsString) : ChatState :=
  let conversation := s.conversations (conversationKey type id)
  if conversation.historyRequested ∨ s.loggedIn = false then s
  else
    let s := s.setConversation (conversationKey type id) { conversation with historyRequested := true }
    match type with
    | .PRIVATE => (s.sendMessage clock (.historyPrivate id 50)).2
    | .ROOM => (s.sendMessage clock (.historyRoom id 50)).2

def selectConversation (s : ChatState) (type : ConversationType) (id : JsString) : ChatState :=
  if id = [] then { s with current := none }
  else
    let key := conversationKey type id
    let s := s.setConversation key { s.conversations key with unreadCount := 0 }
    let s := { s with current := some (type, id) }
    let s :=
      match type with
      | .PRIVATE => { s with users := addToSet s.users id }
      | .ROOM => { s with rooms := addToSet s.rooms id }
    s.requestHistoryIfNeeded clock type id

/-! ### What the user does -/

def refreshUsers (s : ChatState) : ChatState := (s.sendMessage clock .users).2

/-- `text` is the value of the input. -/
def sendCurrentMessage (s : ChatState) (text : JsString) : ChatState :=
  let text := Words.trim isJsSpace text
  match s.current with
  | none => s
  | some (type, id) =>
    if text = [] then s
    else
      let request : Request := match type with
        | .PRIVATE => .privateMessage id text
        | .ROOM => .roomMsg id text
      let (done, s) := s.sendMessage clock request
      if done then
        let sender := match type with
          | .PRIVATE => "Me -> ".toList ++ id
          | .ROOM => "Me".toList
        let now : ℚ := clock s.readings
        { s with readings := s.readings + 1 }.addMessageToConversation clock type id
          { sender, content := text, createdAt := .number now, kind := .MINE } false
      else s

def openRoomDialog (s : ChatState) (mode : RoomMode) : ChatState := { s with roomDialogMode := some mode }

def closeRoomDialog (s : ChatState) : ChatState := { s with roomDialogMode := none }

/-- `room` is the value of the input. -/
def submitRoomDialog (s : ChatState) (room : JsString) : ChatState :=
  let room := Words.trim isJsSpace room
  if room = [] then s
  else
    let create := s.roomDialogMode = some .create
    let s := { s.closeRoomDialog with pendingRoomAction := some (room, if create then .create else .join) }
    (s.sendMessage clock (if create then .createRoom room else .join room)).2

def leaveCurrentRoom (s : ChatState) : ChatState :=
  match s.current with
  | some (.ROOM, room) =>
    ({ s with pendingRoomAction := some (room, .leave) }.sendMessage clock (.leave room)).2
  | _ => s.appendSystemMessage clock "Select a room before leaving.".toList

/-! ### What the server says -/

def showMainWindow (s : ChatState) (username : JsString) : ChatState :=
  ({ s with username, loggedIn := true }.sendMessage clock .users).2

def handleLoginOrMainError (s : ChatState) (message : JsString) : ChatState :=
  if s.loggedIn then s.appendErrorMessage clock message else s

/-- The end of `handleOk`. -/
def handleOtherOk (s : ChatState) (text : JsString) : ChatState :=
  if text = "private message sent".toList ∨ text = "private message saved".toList ∨ text = [] then s
  else s.appendSystemMessage clock text

def handleOk (s : ChatState) (message : JsObject) : ChatState :=
  let text := textOf message "message"
  if text = "connected".toList ∧ s.loggedIn = false then s
  else if "logged in as ".toList <+: text then s.showMainWindow clock (text.drop "logged in as ".length)
  else if text = "logged out".toList then
    { s with loggedIn := false, username := [] }.appendSystemMessage clock "Logged out.".toList
  else
    match s.pendingRoomAction with
    | some (room, _) =>
      if text = "room created".toList then
        ({ s with pendingRoomAction := some (room, .join) }.sendMessage clock (.join room)).2
      else if text = "joined room".toList then
        ({ s with rooms := addToSet s.rooms room, pendingRoomAction := none }.selectConversation clock .ROOM
          room).appendSystemMessage clock ("Joined room: ".toList ++ room)
      else if text = "left room".toList then
        { s with
          rooms := s.rooms.filter (· ≠ room)
          pendingRoomAction := none
          current := if s.isActiveConversation .ROOM room then none else s.current }
      else s.handleOtherOk clock text
    | none => s.handleOtherOk clock text

def handleUsers (s : ChatState) (usersText : JsString) : ChatState :=
  let parts := (usersText.splitOn ',').map (Words.trim isJsSpace)
  { s with users := (parts.filter fun user => user ≠ [] ∧ user ≠ s.username).foldl addToSet [] }

/-- The message of an event. -/
def eventMessage (message : JsObject) : Message :=
  { id := member message "id", sender := textOf message "from", content := textOf message "message"
    createdAt := member message "created_at", kind := .OTHER }

def handlePrivateMessage (s : ChatState) (message : JsObject) : ChatState :=
  let sender := textOf message "from"
  if sender = [] then s
  else
    { s with users := addToSet s.users sender }.addMessageToConversation clock .PRIVATE sender
      (eventMessage message) true

def handleRoomMessage (s : ChatState) (message : JsObject) : ChatState :=
  let room := textOf message "room"
  let sender := textOf message "from"
  if room = [] ∨ sender = [] ∨ sender = s.username then s
  else { s with rooms := addToSet s.rooms room }.addMessageToConversation clock .ROOM room (eventMessage message) true

/-- The message that `handlePrivateHistory` and `handleRoomHistory` make of an item. -/
def historyMessage (s : ChatState) (item : JsObject) : Message :=
  let sender := textOf item "sender"
  let mine := sender = s.username
  { id := member item "id", sender := if mine then "Me".toList else sender, content := textOf item "content"
    createdAt := member item "created_at", kind := if mine then .MINE else .OTHER }

/-- The body of the loops of `handlePrivateHistory` and `handleRoomHistory`. -/
def mergeItem (s : ChatState) (type : ConversationType) (id : JsString) (item : JsObject) : ChatState :=
  if textOf item "sender" = [] ∨ textOf item "content" = [] then s
  else s.addMessageToConversation clock type id (s.historyMessage item) false

def handlePrivateHistory (s : ChatState) (message : JsObject) : ChatState :=
  let peer := textOf message "peer"
  match member message "messages" with
  | .array items =>
    if peer = [] then s.appendErrorMessage clock "Invalid private history response".toList
    else items.foldl (fun s item => s.mergeItem clock .PRIVATE peer item) s
  | _ => s.appendErrorMessage clock "Invalid private history response".toList

def handleRoomHistory (s : ChatState) (message : JsObject) : ChatState :=
  let room := textOf message "room"
  match member message "messages" with
  | .array items =>
    if room = [] then s.appendErrorMessage clock "Invalid room history response".toList
    else items.foldl (fun s item => s.mergeItem clock .ROOM room item) { s with rooms := addToSet s.rooms room }
  | _ => s.appendErrorMessage clock "Invalid room history response".toList

/-- `CALL_MESSAGE_TYPES`. -/
def callMessageTypes : List JsString :=
  ["call_invite".toList, "call_accept".toList, "call_reject".toList, "call_busy".toList, "call_cancel".toList,
    "call_hangup".toList, "call_timeout".toList, "call_error".toList, "webrtc_offer".toList, "webrtc_answer".toList,
    "ice_candidate".toList]

def handleServerMessage (s : ChatState) (message : JsObject) : ChatState :=
  let type := textOf message "type"
  -- `handleCallProtocolMessage`; what it sends is an input of its own, `callMessage`
  if type ∈ callMessageTypes then s
  else if type = "ok".toList then s.handleOk clock message
  else if type = "error".toList ∨ type = "gateway_error".toList then
    let text := textOf message "message"
    { s with pendingRoomAction := none }.handleLoginOrMainError clock
      (if text = [] then "Unknown error".toList else text)
  else if type = "users".toList then s.handleUsers (textOf message "users")
  else if type = "private".toList then s.handlePrivateMessage clock message
  else if type = "room".toList then s.handleRoomMessage clock message
  else if type = "history_private_result".toList then s.handlePrivateHistory clock message
  else if type = "history_room_result".toList then s.handleRoomHistory clock message
  else s.appendErrorMessage clock
    ("Unknown server message type: ".toList ++ if type = [] then "(missing)".toList else type)

/-- The `close` event of the socket. -/
def handleClose (s : ChatState) : ChatState :=
  let closed := { s with socketOpen := false, loggedIn := false }
  if s.loggedIn then closed.appendSystemMessage clock "Disconnected from server.".toList else closed

end ChatState

/-- What can happen in the browser. -/
inductive Input where
  | refreshUsers
  | openRoomDialog (mode : RoomMode)
  | closeRoomDialog
  | submitRoomDialog (room : JsString)
  | leaveCurrentRoom
  | selectConversation (type : ConversationType) (id : JsString)
  | sendCurrentMessage (text : JsString)
  /-- a handler of the calls sends a message -/
  | callMessage
  | message (object : JsObject)
  /-- a message that is no JSON text, or an `error` event -/
  | failure (text : JsString)
  | close

def step (clock : ℕ → ℤ) (s : ChatState) : Input → ChatState
  | .refreshUsers => s.refreshUsers clock
  | .openRoomDialog mode => s.openRoomDialog mode
  | .closeRoomDialog => s.closeRoomDialog
  | .submitRoomDialog room => s.submitRoomDialog clock room
  | .leaveCurrentRoom => s.leaveCurrentRoom clock
  | .selectConversation type id => s.selectConversation clock type id
  | .sendCurrentMessage text => s.sendCurrentMessage clock text
  | .callMessage => s.sendCallMessage clock
  | .message object => s.handleServerMessage clock object
  | .failure text => s.handleLoginOrMainError clock text
  | .close => s.handleClose clock

def run (clock : ℕ → ℤ) (s : ChatState) (inputs : List Input) : ChatState := inputs.foldl (step clock) s

end Web

end ChatService
