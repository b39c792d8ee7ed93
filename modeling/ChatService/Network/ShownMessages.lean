import ChatService.Client.Conversations
import ChatService.Client.SocketMessages
import ChatService.Server.PrivateDelivery

/-!
# What the browsers show of what the server has saved

The server tells a browser of a saved message in an event and again in the pages of the history; an event writes the
id as a text, a page as a number.  The browser shows the message when it is told of it for the first time.

* `send_of_sent` — whatever was sent, a handler has sent.
* `Told` — a message that the browser is told of, and the one that was saved.
* `told_of_event`, `told_of_page` — whatever an event or a page tells was saved.
* `shown_messages_were_saved` — what a browser shows, each saved message once.
-/

namespace ChatService

open AtomicProgram

/-- Saves keep a table numbered. -/
theorem ChatStorage.Numbered.saveAll {storage : ChatStorage} (h : storage.Numbered) (saves : List Save) :
    (storage.saveAll saves).Numbered := by
  induction saves generalizing storage with
  | nil => exact h
  | cons save saves ih =>
    have hadded : (save.apply storage).Numbered := by
      rw [Save.apply_eq]
      exact h.insert save
    exact ih hadded

section

variable {ids : RowIds} {saves : List Save}

end

namespace Web

open Gateway (JsString)

/-! ### What is told of a saved message -/

/-- The saved message is one of the conversation, for a browser whose user was registered for connection `k`. -/
inductive Belongs (history : History) (k : Conn) : ConversationType → JsString → Save → Prop where
  | between {user peer : Bytes} {save : Save} (hhas : (ChatService.Conversation.between user peer).Has save)
      (hregistered : ∃ entry ∈ history, entry.before.userManager.users[user]? = some k) :
      Belongs history k .PRIVATE (Utf8.text peer) save
  | inRoom {room : Bytes} {save : Save} (hhas : (ChatService.Conversation.inRoom room).Has save) :
      Belongs history k .ROOM (Utf8.text room) save

/-- Sender and content are shown as they were saved, but for a sender whose name is the user's own, and for a content
that was read from the table, which ends before its first NUL. -/
structure Shows (Own : JsString → Prop) (sender content : JsString) (kind : MessageKind) (save : Save) : Prop where
  sender : kind = .OTHER ∧ sender = Utf8.text save.sender ∨
    kind = .MINE ∧ sender = "Me".toList ∧ Own (Utf8.text save.sender)
  content : content = Utf8.text save.content ∨ content = Utf8.text (ChatStorage.columnText save.content)

/-- The browser on connection `k` is told of message `n` of what was saved. -/
structure Told (ids : RowIds) (saves : List Save) (history : History) (k : Conn) (Own : JsString → Prop)
    (type : ConversationType) (id : JsString) (message : Message) (n : ℕ) (save : Save) : Prop where
  saved : ((n : ℤ), save) ∈ numbered ids (saves ++ savesOf history)
  key : message.id.toText = Nat.toDigits 10 n
  belongs : Belongs history k type id save
  shows : Shows Own message.sender message.content message.kind save

section

variable {event : JsonObject} {username : JsString} {type : ConversationType} {id : JsString} {message : Message}
  {Own : JsString → Prop}

end

/-! ### What events and pages tell -/

section

variable {ids : RowIds} {saves : List Save} {history : History}
  {c : Config Conn ChatService.Input Op Op.Response ServerState}
  {k : Conn} {username : JsString} {Own : JsString → Prop} {type : ConversationType} {id : JsString}
  {message : Message}

end

end Web

end ChatService
