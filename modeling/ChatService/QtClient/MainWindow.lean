import ChatService.QtClient.Protocol
import Mathlib.Data.List.Lex
import Mathlib.Data.List.Sort
import Mathlib.Logic.Function.Basic

/-!
# The window of the Qt client (`qt-client/src/MainWindow.cpp`, `qt-client/src/ChatClient.cpp`)

The slots of `MainWindow` and the objects that `ChatClient` turns into its signals, once the user is logged
in.  Every slot runs to its end before the next signal is handled.  What is only shown (status texts,
badges, the order of the recent conversations, bubbles) is left out; `makeSystemMessage` texts are messages
of a conversation and stay.

Each call of `currentSeconds` takes the next reading of the clock.
-/

namespace ChatService

namespace Qt

/-! ### Data -/

inductive ConversationType where
  | none
  | privateChat
  | roomChat
deriving DecidableEq, Repr

/-- `MessageBubble::Kind`. -/
inductive Kind where
  | mine
  | other
  | system
  | error
deriving DecidableEq, Repr

structure ChatMessage where
  id : ℤ := 0
  sender : QString := []
  receiver : QString := []
  room : QString := []
  content : QString := []
  createdAt : ℤ := 0
  kind : Kind := .other
  dedupeKey : QString := []
deriving DecidableEq

structure ConversationState where
  type : ConversationType := .none
  id : QString := []
  messages : List ChatMessage := []
  messageKeys : List QString := []
  historyRequested : Bool := false
  unreadCount : ℕ := 0
deriving DecidableEq

/-- What `ChatClient` writes to the socket for the window. -/
inductive Request where
  | users
  | privateMessage (target message : QString)
  | createRoom (room : QString)
  | joinRoom (room : QString)
  | leaveRoom (room : QString)
  | roomMessage (room message : QString)
  | privateHistory (peer : QString) (limit : ℕ)
  | roomHistory (room : QString) (limit : ℕ)
deriving DecidableEq

/-- The window and its client.  `conversations_[key]` is an empty conversation before it is used. -/
structure MainWindow where
  /-- `currentUsername_` of the client -/
  currentUsername : QString
  /-- `socket_->state() == ConnectedState` -/
  connected : Bool := true
  conversations : QString → ConversationState := fun _ => {}
  currentType : ConversationType := .none
  currentConversationId : QString := []
  pendingCreateRoom : QString := []
  pendingJoinRoom : QString := []
  pendingLeaveRoom : QString := []
  localMessageSequence : ℕ := 0
  usersList : List QString := []
  roomsList : List QString := []
  /-- what was written to the socket, latest last -/
  requests : List Request := []
  /-- how many readings of the clock were taken -/
  readings : ℕ := 0
  /-- how often `addMessageToConversation` has returned `true` -/
  additions : ℕ := 0

/-- `DEFAULT_HISTORY_LIMIT`. -/
def defaultHistoryLimit : ℕ := 50

def conversationKey (type : ConversationType) (id : QString) : QString :=
  match type with
  | .privateChat => "private:".toList ++ id
  | .roomChat => "room:".toList ++ id
  | .none => []

/-- The comparison that `addMessageToConversation` sorts with. -/
def less (left right : ChatMessage) : Bool :=
  if left.createdAt ≠ right.createdAt then left.createdAt < right.createdAt
  else if left.id ≠ right.id then left.id < right.id
  else left.dedupeKey < right.dedupeKey

def dbKey (id : ℤ) : QString := "db:".toList ++ number id

def localKey (sequence : ℕ) : QString := "local:".toList ++ number sequence

/-- A conversation with one more message, sorted. -/
def ConversationState.append (conversation : ConversationState) (stored : ChatMessage) (unread : ℕ) :
    ConversationState :=
  { conversation with
    messageKeys := stored.dedupeKey :: conversation.messageKeys
    messages := (conversation.messages ++ [stored]).insertionSort fun x y => less y x = false
    unreadCount := conversation.unreadCount + unread }

namespace MainWindow

variable (clock : ℕ → ℤ)

/-- `conversation = …` for the conversation under this key. -/
def setConversation (w : MainWindow) (key : QString) (conversation : ConversationState) : MainWindow :=
  { w with conversations := Function.update w.conversations key conversation }

def currentConversationKey (w : MainWindow) : QString := conversationKey w.currentType w.currentConversationId

def ensureConversation (w : MainWindow) (type : ConversationType) (id : QString) : MainWindow :=
  let conversation := w.conversations (conversationKey type id)
  w.setConversation (conversationKey type id)
    (if conversation.type = .none then { conversation with type, id } else conversation)

/-- `currentSeconds()`. -/
def currentSeconds (w : MainWindow) : ℤ × MainWindow := (clock w.readings, { w with readings := w.readings + 1 })

def nextLocalMessageKey (w : MainWindow) : QString × MainWindow :=
  (localKey (w.localMessageSequence + 1), { w with localMessageSequence := w.localMessageSequence + 1 })

/-- `stored.createdAt` is set. -/
def stampMessage (w : MainWindow) (stored : ChatMessage) : ChatMessage × MainWindow :=
  if stored.createdAt ≤ 0 then
    let (now, w) := w.currentSeconds clock
    ({ stored with createdAt := now }, w)
  else (stored, w)

/-- `stored.dedupeKey` is set. -/
def keyMessage (w : MainWindow) (stored : ChatMessage) : ChatMessage × MainWindow :=
  if stored.dedupeKey = [] then
    if stored.id > 0 then ({ stored with dedupeKey := dbKey stored.id }, w)
    else
      let (key, w) := w.nextLocalMessageKey
      ({ stored with dedupeKey := key }, w)
  else (stored, w)

/-- What is added to `conversation.unreadCount`. -/
def newUnread (w : MainWindow) (key : QString) (markUnread : Bool) : ℕ :=
  if key ≠ w.currentConversationKey ∧ markUnread then 1 else 0

/-- The second half of `addMessageToConversation`, when `stored` has its time and its key. -/
def storeMessage (w : MainWindow) (type : ConversationType) (id : QString) (stored : ChatMessage)
    (markUnread : Bool) : MainWindow :=
  let key := conversationKey type id
  let conversation := w.conversations key
  if stored.dedupeKey ∈ conversation.messageKeys then w
  else
    { w.setConversation key (conversation.append stored (w.newUnread key markUnread)) with
      additions := w.additions + 1 }

def addMessageToConversation (w : MainWindow) (type : ConversationType) (id : QString) (message : ChatMessage)
    (markUnread : Bool) : MainWindow :=
  let w := w.ensureConversation type id
  let (stored, w) := w.stampMessage clock message
  let (stored, w) := w.keyMessage stored
  w.storeMessage type id stored markUnread

def makeSystemMessage (w : MainWindow) (text : QString) (kind : Kind) : ChatMessage × MainWindow :=
  let sender := if kind = .error then "Error".toList else "System".toList
  let (createdAt, w) := w.currentSeconds clock
  let (dedupeKey, w) := w.nextLocalMessageKey
  ({ sender, content := text, createdAt, kind, dedupeKey }, w)

/-- `appendSystemMessage` and `appendErrorMessage`, which differ in the kind; without a conversation the text
is only shown as the status. -/
def appendMessage (w : MainWindow) (text : QString) (kind : Kind) : MainWindow :=
  if w.currentType = .none ∨ w.currentConversationId = [] then w
  else
    let (message, w) := w.makeSystemMessage clock text kind
    w.addMessageToConversation clock w.currentType w.currentConversationId message false

def appendSystemMessage (w : MainWindow) (text : QString) : MainWindow := w.appendMessage clock text .system

def appendErrorMessage (w : MainWindow) (text : QString) : MainWindow := w.appendMessage clock text .error

def showError (w : MainWindow) (message : QString) : MainWindow :=
  { w.appendErrorMessage clock message with
    pendingCreateRoom := [], pendingJoinRoom := [], pendingLeaveRoom := [] }

def handleConnectionError (w : MainWindow) (message : QString) : MainWindow := w.showError clock message

/-- `sendLine`, which emits `connectionError` when the socket is not connected. -/
def sendLine (w : MainWindow) (request : Request) : MainWindow :=
  if w.connected then { w with requests := w.requests ++ [request] }
  else w.handleConnectionError clock "Socket is not connected".toList

/-! ### Lists -/

def addUserIfMissing (w : MainWindow) (username : QString) : MainWindow :=
  if username = [] ∨ username = w.currentUsername ∨ username ∈ w.usersList then w
  else { w with usersList := w.usersList ++ [username] }

def addRoomIfMissing (w : MainWindow) (room : QString) : MainWindow :=
  if room = [] ∨ room ∈ w.roomsList then w else { w with roomsList := w.roomsList ++ [room] }

def requestHistoryIfNeeded (w : MainWindow) (key : QString) : MainWindow :=
  let conversation := w.conversations key
  if conversation.historyRequested then w
  else
    let w := w.setConversation key { conversation with historyRequested := true }
    match conversation.type with
    | .privateChat => w.sendLine clock (.privateHistory conversation.id defaultHistoryLimit)
    | .roomChat => w.sendLine clock (.roomHistory conversation.id defaultHistoryLimit)
    | .none => w

def selectConversation (w : MainWindow) (type : ConversationType) (id : QString) : MainWindow :=
  if type = .none ∨ id = [] then { w with currentType := .none, currentConversationId := [] }
  else
    let w := w.ensureConversation type id
    let key := conversationKey type id
    let w := w.setConversation key { w.conversations key with unreadCount := 0 }
    let w := { w with currentType := type, currentConversationId := id }
    let w := if type = .privateChat then w.addUserIfMissing id else w.addRoomIfMissing id
    w.requestHistoryIfNeeded clock key

def removeRoom (w : MainWindow) (room : QString) : MainWindow :=
  let w := { w with roomsList := w.roomsList.filter (· ≠ room) }
  if w.currentType = .roomChat ∧ w.currentConversationId = room then w.selectConversation clock .none [] else w

def updateUsers (w : MainWindow) (users : List QString) : MainWindow :=
  let w := users.foldl addUserIfMissing { w with usersList := [] }
  if w.currentType = .privateChat ∧ w.currentConversationId ≠ [] then w.addUserIfMissing w.currentConversationId
  else w

/-! ### What the user does -/

def refreshUsers (w : MainWindow) : MainWindow := w.sendLine clock .users

/-- `room` is the text of the dialog. -/
def createRoom (w : MainWindow) (room : QString) : MainWindow :=
  let room := trimmed room
  if room = [] then w else { w with pendingCreateRoom := room }.sendLine clock (.createRoom room)

def joinRoom (w : MainWindow) (room : QString) : MainWindow :=
  let room := trimmed room
  if room = [] then w else { w with pendingJoinRoom := room }.sendLine clock (.joinRoom room)

/-- `room` is what `selectedRoom()` returns: a room of the list, or the current one. -/
def leaveRoom (w : MainWindow) (room : QString) : MainWindow :=
  if room = [] then w.appendSystemMessage clock "Select a room before leaving.".toList
  else { w with pendingLeaveRoom := room }.sendLine clock (.leaveRoom room)

/-- The message that `sendCurrentMessage` makes of a text. -/
def typedMessage (w : MainWindow) (text : QString) : ChatMessage × MainWindow :=
  let (createdAt, w) := w.currentSeconds clock
  let (dedupeKey, w) := w.nextLocalMessageKey
  ({ sender := w.currentUsername
     receiver := if w.currentType = .privateChat then w.currentConversationId else []
     room := if w.currentType = .roomChat then w.currentConversationId else []
     content := text, createdAt, kind := .mine, dedupeKey }, w)

/-- `text` is the text of `messageEdit_`. -/
def sendCurrentMessage (w : MainWindow) (text : QString) : MainWindow :=
  let text := trimmed text
  if text = [] ∨ w.currentType = .none ∨ w.currentConversationId = [] then w
  else
    let (message, w) := w.typedMessage clock text
    let (type, id) := (w.currentType, w.currentConversationId)
    let w := w.sendLine clock (if type = .privateChat then .privateMessage id text else .roomMessage id text)
    w.addMessageToConversation clock type id message false

/-! ### What the server says -/

def showInfo (w : MainWindow) (message : QString) : MainWindow :=
  if message = "room created".toList ∧ w.pendingCreateRoom ≠ [] then
    let w := { w with pendingJoinRoom := w.pendingCreateRoom, pendingCreateRoom := [] }
    w.sendLine clock (.joinRoom w.pendingJoinRoom)
  else if message = "joined room".toList ∧ w.pendingJoinRoom ≠ [] then
    let room := w.pendingJoinRoom
    let w := { w.addRoomIfMissing room with pendingJoinRoom := [] }
    (w.selectConversation clock .roomChat room).appendSystemMessage clock ("Joined room: ".toList ++ room)
  else if message = "left room".toList ∧ w.pendingLeaveRoom ≠ [] then
    let room := w.pendingLeaveRoom
    let w := { w.removeRoom clock room with pendingLeaveRoom := [] }
    w.appendSystemMessage clock ("Left room: ".toList ++ room)
  else if message = "private message sent".toList ∨ message = "private message saved".toList then w
  else w.appendSystemMessage clock message

/-- The message of an event. -/
def eventMessage (w : MainWindow) (message : ChatMessage) : ChatMessage × MainWindow :=
  let (createdAt, w) := if message.createdAt > 0 then (message.createdAt, w) else w.currentSeconds clock
  ({ message with createdAt, dedupeKey := if message.id > 0 then dbKey message.id else [] }, w)

def handlePrivateMessage (w : MainWindow) (sender message : QString) (id createdAt : ℤ) : MainWindow :=
  let w := w.addUserIfMissing sender
  let (chatMessage, w) := w.eventMessage clock
    { id, sender, receiver := w.currentUsername, content := message, createdAt }
  w.addMessageToConversation clock .privateChat sender chatMessage true

def handleRoomMessage (w : MainWindow) (room sender message : QString) (id createdAt : ℤ) : MainWindow :=
  if sender = w.currentUsername then w
  else
    let w := w.addRoomIfMissing room
    let (chatMessage, w) := w.eventMessage clock { id, sender, room, content := message, createdAt }
    w.addMessageToConversation clock .roomChat room chatMessage true

/-- The message that `mergePrivateHistory` and `mergeRoomHistory` make of an element of the array. -/
def historyMessage (w : MainWindow) (type : ConversationType) (name : QString) (object : QJsonObject) : ChatMessage :=
  let id := int64Value object "id" 0
  let sender := stringValue object "sender"
  let room := stringValue object "room"
  { id, sender
    receiver := if type = .privateChat then stringValue object "receiver" else []
    room := if type = .privateChat then [] else if room = [] then name else room
    content := stringValue object "content"
    createdAt := int64Value object "created_at" 0
    kind := if sender = w.currentUsername then .mine else .other
    dedupeKey := if id > 0 then dbKey id else [] }

/-- The body of the loops of `mergePrivateHistory` and `mergeRoomHistory`. -/
def mergeItem (w : MainWindow) (type : ConversationType) (name : QString) (value : QJsonValue) : MainWindow :=
  match value with
  | .object object =>
    let message := w.historyMessage type name object
    if message.sender ≠ [] ∧ message.content ≠ [] then w.addMessageToConversation clock type name message false else w
  | _ => w

def mergePrivateHistory (w : MainWindow) (peer : QString) (messages : List QJsonValue) : MainWindow :=
  messages.foldl (fun w value => w.mergeItem clock .privateChat peer value) w

def mergeRoomHistory (w : MainWindow) (room : QString) (messages : List QJsonValue) : MainWindow :=
  messages.foldl (fun w value => w.mergeItem clock .roomChat room value) w

def handleDisconnected (w : MainWindow) : MainWindow :=
  { w with connected := false, currentUsername := [] }.appendSystemMessage clock "Disconnected from server.".toList

/-- `ChatClient::handleUsers`; the parts that are empty are skipped twice. -/
def handleUsers (w : MainWindow) (users : QString) : List QString :=
  let parts := (users.splitOn ',').filter (· ≠ [])
  (parts.map trimmed).filter fun user => user ≠ [] ∧ user ≠ w.currentUsername

/-- The first branch of `handleObject`. -/
def handleOk (w : MainWindow) (message : QString) : MainWindow :=
  if "logged in as ".toList <+: message then { w with currentUsername := message.drop "logged in as ".length }
  else
    let w := if message = "logged out".toList then { w with currentUsername := [] } else w
    w.showInfo clock message

/-- `ChatClient::handleObject`, with the slots that its signals call. -/
def handleObject (w : MainWindow) (object : QJsonObject) : MainWindow :=
  let type := stringValue object "type"
  if type = "ok".toList then w.handleOk clock (stringValue object "message")
  else if type = "error".toList then w.showError clock (stringValue object "message")
  else if type = "users".toList then w.updateUsers (w.handleUsers (stringValue object "users"))
  else if type = "private".toList then
    w.handlePrivateMessage clock (stringValue object "from") (stringValue object "message") (int64Value object "id" 0)
      (int64Value object "created_at" 0)
  else if type = "room".toList then
    w.handleRoomMessage clock (stringValue object "room") (stringValue object "from") (stringValue object "message")
      (int64Value object "id" 0) (int64Value object "created_at" 0)
  else if type = "history_private_result".toList then
    match value object "messages" with
    | .array messages => w.mergePrivateHistory clock (stringValue object "peer") messages
    | _ => w.showError clock "Invalid private history response".toList
  else if type = "history_room_result".toList then
    match value object "messages" with
    | .array messages => w.mergeRoomHistory clock (stringValue object "room") messages
    | _ => w.showError clock "Invalid room history response".toList
  else w.showError clock ("Unknown server message type: ".toList ++ type)

end MainWindow

/-- What can happen to the window: the user acts, or the client emits a signal. -/
inductive Input where
  | refreshUsers
  | createRoom (room : QString)
  | joinRoom (room : QString)
  | leaveRoom (room : QString)
  | selectConversation (type : ConversationType) (id : QString)
  | sendCurrentMessage (text : QString)
  | object (object : QJsonObject)
  /-- the client emits `errorMessage` for a line that is no object -/
  | invalidLine (error : QString)
  | connectionError (error : QString)
  | disconnected

def step (clock : ℕ → ℤ) (w : MainWindow) : Input → MainWindow
  | .refreshUsers => w.refreshUsers clock
  | .createRoom room => w.createRoom clock room
  | .joinRoom room => w.joinRoom clock room
  | .leaveRoom room => w.leaveRoom clock room
  | .selectConversation type id => w.selectConversation clock type id
  | .sendCurrentMessage text => w.sendCurrentMessage clock text
  | .object object => w.handleObject clock object
  | .invalidLine error => w.showError clock ("Invalid JSON from server: ".toList ++ error)
  | .connectionError error => w.handleConnectionError clock error
  | .disconnected => w.handleDisconnected clock

def run (clock : ℕ → ℤ) (w : MainWindow) (inputs : List Input) : MainWindow := inputs.foldl (step clock) w

end Qt

end ChatService
