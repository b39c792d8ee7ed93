import ChatService.Foundation.SortedLog
import ChatService.QtClient.MainWindow
import Mathlib.Data.Char
import Mathlib.Data.Prod.Lex
import Mathlib.Logic.Relation

/-!
# The conversations of the window

Every conversation is a log that is sorted by second, id and key, with no key twice, and the keys it counts
as known are those of its messages.  All that the slots do to conversations is to store messages that have a
key of their own (`Change`); what holds of a window follows from that, for every slot (`changes_step`).
-/

namespace ChatService

namespace Qt

/-! ### The order of messages -/

/-- Second, id, key. -/
def rank (message : ChatMessage) : ℤ ×ₗ ℤ ×ₗ QString :=
  toLex (message.createdAt, toLex (message.id, message.dedupeKey))

theorem rank_lt_rank {x y : ChatMessage} :
    rank x < rank y ↔ x.createdAt < y.createdAt ∨
      x.createdAt = y.createdAt ∧ (x.id < y.id ∨ x.id = y.id ∧ x.dedupeKey < y.dedupeKey) := by
  rw [rank, rank, Prod.Lex.toLex_lt_toLex, Prod.Lex.toLex_lt_toLex]

/-- The comparison is the one of ranks. -/
theorem less_iff {x y : ChatMessage} : less x y = true ↔ rank x < rank y := by
  rw [rank_lt_rank, less]
  split_ifs with htime hid
  · simp [htime]
  · have htime := not_not.mp htime
    simp [htime, hid]
  · have htime := not_not.mp htime
    have hid := not_not.mp hid
    simp [htime, hid]

theorem less_eq_false_iff {x y : ChatMessage} : less y x = false ↔ rank x ≤ rank y := by
  rw [← not_lt, ← less_iff, Bool.not_eq_true]

theorem key_eq_of_rank (x y : ChatMessage) (h : rank x = rank y) : x.dedupeKey = y.dedupeKey := by
  have hpair := congrArg ofLex h
  exact congrArg (fun p => (ofLex p.2).2) hpair

abbrev IsLog (messages : List ChatMessage) : Prop := SortedLog.IsLog ChatMessage.dedupeKey rank messages

/-- Sorting with the comparison is sorting by rank. -/
theorem insertionSort_less (messages : List ChatMessage) :
    (messages.insertionSort fun x y => less y x = false) = messages.insertionSort fun x y => rank x ≤ rank y := by
  have hrel : (fun x y : ChatMessage => less y x = false) = fun x y => rank x ≤ rank y := by
    funext x y
    exact propext less_eq_false_iff
  simp only [hrel]

/-! ### Storing a message -/

/-- What counts as known is what is there. -/
def Known (conversation : ConversationState) : Prop :=
  ∀ key, key ∈ conversation.messageKeys ↔ key ∈ conversation.messages.map ChatMessage.dedupeKey

namespace MainWindow

variable {clock : ℕ → ℤ} {w w' : MainWindow} {type : ConversationType} {id key : QString}
  {stored message : ChatMessage} {markUnread : Bool}

/-- The messages of a conversation. -/
def messages (w : MainWindow) (key : QString) : List ChatMessage := (w.conversations key).messages

theorem setConversation_self (w : MainWindow) (key : QString) (conversation : ConversationState) :
    (w.setConversation key conversation).conversations key = conversation := Function.update_self ..

theorem setConversation_of_ne {key' : QString} (h : key' ≠ key) (conversation : ConversationState) :
    (w.setConversation key conversation).conversations key' = w.conversations key' := Function.update_of_ne h ..

/-- A message whose key is new is appended. -/
theorem storeMessage_conversations (w : MainWindow) (type : ConversationType) (id : QString) (markUnread : Bool)
    (h : stored.dedupeKey ∉ (w.conversations (conversationKey type id)).messageKeys) :
    (w.storeMessage type id stored markUnread).conversations (conversationKey type id) =
      (w.conversations (conversationKey type id)).append stored
        (w.newUnread (conversationKey type id) markUnread) := by
  rw [storeMessage, if_neg h]
  exact setConversation_self ..

theorem storeMessage_messages (h : Known (w.conversations (conversationKey type id))) :
    (w.storeMessage type id stored markUnread).messages (conversationKey type id) =
      SortedLog.add ChatMessage.dedupeKey rank (w.messages (conversationKey type id)) stored := by
  by_cases hknown : stored.dedupeKey ∈ (w.conversations (conversationKey type id)).messageKeys
  · rw [storeMessage, if_pos hknown, SortedLog.add]
    exact (if_pos ((h _).mp hknown)).symm
  · have heq := w.storeMessage_conversations type id markUnread hknown
    rw [messages, heq, SortedLog.add, ← insertionSort_less]
    exact (if_neg fun hmem => hknown ((h _).mpr hmem)).symm

theorem storeMessage_of_ne (h : key ≠ conversationKey type id) :
    (w.storeMessage type id stored markUnread).conversations key = w.conversations key := by
  rw [storeMessage]
  split_ifs
  · rfl
  · exact setConversation_of_ne h _

theorem storeMessage_known (h : Known (w.conversations (conversationKey type id))) :
    Known ((w.storeMessage type id stored markUnread).conversations (conversationKey type id)) := by
  by_cases hknown : stored.dedupeKey ∈ (w.conversations (conversationKey type id)).messageKeys
  · rw [storeMessage, if_pos hknown]
    exact h
  · have heq := w.storeMessage_conversations type id markUnread hknown
    have hsort := (List.perm_insertionSort (fun x y => less y x = false)
      ((w.conversations (conversationKey type id)).messages ++ [stored])).map ChatMessage.dedupeKey
    intro key
    rw [heq]
    show key ∈ stored.dedupeKey :: _ ↔ key ∈ (List.insertionSort _ _).map _
    rw [hsort.mem_iff, List.mem_cons, List.map_append, List.mem_append, h key, List.map_singleton,
      List.mem_singleton, or_comm]

/-- The count goes up by one when the message is new. -/
theorem storeMessage_additions (h : Known (w.conversations (conversationKey type id))) :
    (w.storeMessage type id stored markUnread).additions + (w.messages (conversationKey type id)).length =
      w.additions + ((w.storeMessage type id stored markUnread).messages (conversationKey type id)).length := by
  rw [storeMessage_messages h, SortedLog.length_add, storeMessage]
  by_cases hknown : stored.dedupeKey ∈ (w.conversations (conversationKey type id)).messageKeys
  · have hmem := (h _).mp hknown
    rw [if_pos hknown, messages, if_pos hmem]
    omega
  · have hmem := fun hmem => hknown ((h _).mpr hmem)
    rw [if_neg hknown, messages, if_neg hmem]
    show w.additions + 1 + _ = _
    omega

/-! ### What the slots do -/

/-- A key of the database, or a local one that was given out. -/
def Keyed (w : MainWindow) (stored : ChatMessage) : Prop :=
  0 < stored.id ∧ stored.dedupeKey = dbKey stored.id ∨
    ∃ sequence ≤ w.localMessageSequence, stored.dedupeKey = localKey sequence

/-- No message is stored. -/
structure Keeps (w w' : MainWindow) : Prop where
  messages : ∀ key, (w'.conversations key).messages = (w.conversations key).messages
  messageKeys : ∀ key, (w'.conversations key).messageKeys = (w.conversations key).messageKeys
  sequence : w.localMessageSequence ≤ w'.localMessageSequence
  readings : w.readings ≤ w'.readings

/-- What happens to the conversations. -/
inductive Change : MainWindow → MainWindow → Prop where
  | keep {w w' : MainWindow} (h : Keeps w w') : Change w w'
  | store {w : MainWindow} (type : ConversationType) (id : QString) (stored : ChatMessage) (markUnread : Bool)
      (h : Keyed w stored) : Change w (w.storeMessage type id stored markUnread)

abbrev Changes : MainWindow → MainWindow → Prop := Relation.ReflTransGen Change

theorem Keeps.changes (h : Keeps w w') : Changes w w' := .single (.keep h)

/-- Fields that are not about messages may change. -/
theorem keeps_of_eq (hconversations : w'.conversations = w.conversations)
    (hsequence : w'.localMessageSequence = w.localMessageSequence) (hreadings : w'.readings = w.readings) :
    Keeps w w' :=
  ⟨fun _ => by rw [hconversations], fun _ => by rw [hconversations], hsequence.ge, hreadings.ge⟩

theorem changes_of_eq (hconversations : w'.conversations = w.conversations)
    (hsequence : w'.localMessageSequence = w.localMessageSequence) (hreadings : w'.readings = w.readings) :
    Changes w w' := (keeps_of_eq hconversations hsequence hreadings).changes

theorem keeps_setConversation {conversation : ConversationState}
    (hmessages : conversation.messages = (w.conversations key).messages)
    (hkeys : conversation.messageKeys = (w.conversations key).messageKeys) :
    Keeps w (w.setConversation key conversation) := by
  have hkey : ∀ key', (w.setConversation key conversation).conversations key' =
      if key' = key then conversation else w.conversations key' := fun key' => Function.update_apply ..
  refine ⟨fun key' => ?_, fun key' => ?_, le_rfl, le_rfl⟩
  · rw [hkey]
    split_ifs with heq
    · rw [heq, hmessages]
    · rfl
  · rw [hkey]
    split_ifs with heq
    · rw [heq, hkeys]
    · rfl

theorem changes_setConversation {conversation : ConversationState}
    (hmessages : conversation.messages = (w.conversations key).messages)
    (hkeys : conversation.messageKeys = (w.conversations key).messageKeys) :
    Changes w (w.setConversation key conversation) := (keeps_setConversation hmessages hkeys).changes

theorem keeps_ensureConversation : Keeps w (w.ensureConversation type id) := by
  refine keeps_setConversation ?_ ?_
  · split_ifs <;> rfl
  · split_ifs <;> rfl

theorem keeps_stampMessage : Keeps w (w.stampMessage clock message).2 := by
  rw [stampMessage]
  split_ifs
  · exact ⟨fun _ => rfl, fun _ => rfl, le_rfl, Nat.le_succ _⟩
  · exact keeps_of_eq rfl rfl rfl

theorem keeps_keyMessage : Keeps w (w.keyMessage message).2 := by
  rw [keyMessage]
  split_ifs
  · exact keeps_of_eq rfl rfl rfl
  · exact ⟨fun _ => rfl, fun _ => rfl, Nat.le_succ _, le_rfl⟩
  · exact keeps_of_eq rfl rfl rfl

theorem Keyed.mono (h : Keyed w message) (hle : w.localMessageSequence ≤ w'.localMessageSequence) :
    Keyed w' message := by
  rcases h with h | ⟨sequence, hsequence, h⟩
  · exact .inl h
  · exact .inr ⟨sequence, hsequence.trans hle, h⟩

theorem stampMessage_key (clock : ℕ → ℤ) (w : MainWindow) (message : ChatMessage) :
    (w.stampMessage clock message).1.dedupeKey = message.dedupeKey ∧
    (w.stampMessage clock message).1.id = message.id := by
  rw [stampMessage]
  split_ifs <;> exact ⟨rfl, rfl⟩

/-- Behind `keyMessage` every message has a key. -/
theorem keyed_keyMessage (h : message.dedupeKey = [] ∨ Keyed w message) :
    Keyed (w.keyMessage message).2 (w.keyMessage message).1 := by
  rw [keyMessage]
  split_ifs with hkey hid
  · exact .inl ⟨hid, rfl⟩
  · exact .inr ⟨_, le_rfl, rfl⟩
  · exact h.resolve_left hkey

theorem changes_addMessageToConversation (h : message.dedupeKey = [] ∨ Keyed w message) :
    Changes w (w.addMessageToConversation clock type id message markUnread) := by
  have hensure : Keeps w (w.ensureConversation type id) := keeps_ensureConversation
  have hstamp : Keeps _ ((w.ensureConversation type id).stampMessage clock message).2 := keeps_stampMessage
  have hkeyed : ((w.ensureConversation type id).stampMessage clock message).1.dedupeKey = [] ∨
      Keyed ((w.ensureConversation type id).stampMessage clock message).2
        ((w.ensureConversation type id).stampMessage clock message).1 := by
    rcases h with h | h
    · exact .inl ((stampMessage_key _ _ _).1.trans h)
    · refine .inr ?_
      have hkeyed := h.mono (hensure.sequence.trans hstamp.sequence)
      rwa [Keyed, ← (stampMessage_key clock (w.ensureConversation type id) message).1,
        ← (stampMessage_key clock (w.ensureConversation type id) message).2] at hkeyed
  exact (hensure.changes.trans hstamp.changes).trans
    (keeps_keyMessage.changes.tail (.store type id _ markUnread (keyed_keyMessage hkeyed)))

theorem changes_appendMessage {text : QString} {kind : Kind} : Changes w (w.appendMessage clock text kind) := by
  rw [appendMessage]
  split_ifs
  · exact .refl
  · have hmake : Keeps w (w.makeSystemMessage clock text kind).2 :=
      ⟨fun _ => rfl, fun _ => rfl, Nat.le_succ _, Nat.le_succ _⟩
    have hkeyed : Keyed (w.makeSystemMessage clock text kind).2 (w.makeSystemMessage clock text kind).1 :=
      .inr ⟨_, le_rfl, rfl⟩
    exact hmake.changes.trans (changes_addMessageToConversation (.inr hkeyed))

theorem changes_showError {text : QString} : Changes w (w.showError clock text) := by
  have happend : Changes w (w.appendErrorMessage clock text) := changes_appendMessage
  exact happend.trans (changes_of_eq rfl rfl rfl)

theorem changes_sendLine {request : Request} : Changes w (w.sendLine clock request) := by
  rw [sendLine]
  split_ifs
  · exact changes_of_eq rfl rfl rfl
  · exact changes_showError

theorem changes_addUserIfMissing {username : QString} : Changes w (w.addUserIfMissing username) := by
  rw [addUserIfMissing]
  split_ifs
  · exact .refl
  · exact changes_of_eq rfl rfl rfl

theorem changes_addRoomIfMissing {room : QString} : Changes w (w.addRoomIfMissing room) := by
  rw [addRoomIfMissing]
  split_ifs
  · exact .refl
  · exact changes_of_eq rfl rfl rfl

theorem changes_requestHistoryIfNeeded : Changes w (w.requestHistoryIfNeeded clock key) := by
  rw [requestHistoryIfNeeded]
  split_ifs
  · exact .refl
  · have hset : Changes w (w.setConversation key { w.conversations key with historyRequested := true }) :=
      changes_setConversation rfl rfl
    refine hset.trans ?_
    split
    · exact changes_sendLine
    · exact changes_sendLine
    · exact .refl

theorem changes_selectConversation : Changes w (w.selectConversation clock type id) := by
  by_cases hnone : type = .none ∨ id = []
  · rw [selectConversation, if_pos hnone]
    exact changes_of_eq rfl rfl rfl
  · have hensure : Changes w (w.ensureConversation type id) := keeps_ensureConversation.changes
    have hread : Changes (w.ensureConversation type id) ((w.ensureConversation type id).setConversation
        (conversationKey type id)
        { (w.ensureConversation type id).conversations (conversationKey type id) with unreadCount := 0 }) :=
      changes_setConversation rfl rfl
    have hcurrent : ∀ v : MainWindow, Changes v { v with currentType := type, currentConversationId := id } :=
      fun v => changes_of_eq rfl rfl rfl
    have hlist : ∀ v : MainWindow, Changes v (if type = .privateChat then v.addUserIfMissing id
        else v.addRoomIfMissing id) := by
      intro v
      split_ifs
      · exact changes_addUserIfMissing
      · exact changes_addRoomIfMissing
    rw [selectConversation, if_neg hnone]
    exact (((hensure.trans hread).trans (hcurrent _)).trans (hlist _)).trans changes_requestHistoryIfNeeded

theorem changes_removeRoom {room : QString} : Changes w (w.removeRoom clock room) := by
  have hlist : Changes w { w with roomsList := w.roomsList.filter (· ≠ room) } := changes_of_eq rfl rfl rfl
  refine hlist.trans ?_
  rw [removeRoom]
  split_ifs
  · exact changes_selectConversation
  · exact .refl

theorem changes_updateUsers {users : List QString} : Changes w (w.updateUsers users) := by
  have hfold : ∀ v : MainWindow, Changes v (users.foldl addUserIfMissing v) := by
    induction users with
    | nil => exact fun v => .refl
    | cons user users ih => exact fun v => changes_addUserIfMissing.trans (ih _)
  have hclear : Changes w { w with usersList := [] } := changes_of_eq rfl rfl rfl
  refine (hclear.trans (hfold _)).trans ?_
  rw [updateUsers]
  split_ifs
  · exact changes_addUserIfMissing
  · exact .refl

/-- The fields of pending actions may change before a request. -/
theorem changes_request {request : Request} (hconversations : w'.conversations = w.conversations)
    (hsequence : w'.localMessageSequence = w.localMessageSequence) (hreadings : w'.readings = w.readings) :
    Changes w (w'.sendLine clock request) :=
  (changes_of_eq hconversations hsequence hreadings).trans changes_sendLine

theorem changes_createRoom {room : QString} : Changes w (w.createRoom clock room) := by
  rw [createRoom]
  split_ifs
  · exact .refl
  · exact changes_request rfl rfl rfl

theorem changes_joinRoom {room : QString} : Changes w (w.joinRoom clock room) := by
  rw [joinRoom]
  split_ifs
  · exact .refl
  · exact changes_request rfl rfl rfl

theorem changes_leaveRoom {room : QString} : Changes w (w.leaveRoom clock room) := by
  rw [leaveRoom]
  split_ifs
  · exact changes_appendMessage
  · exact changes_request rfl rfl rfl

/-- The window after a text was typed and sent, before it is shown. -/
def afterSending (clock : ℕ → ℤ) (w : MainWindow) (text : QString) : MainWindow :=
  (w.typedMessage clock text).2.sendLine clock
    (if w.currentType = .privateChat then .privateMessage w.currentConversationId text
      else .roomMessage w.currentConversationId text)

theorem changes_afterSending {text : QString} : Changes w (w.afterSending clock text) := by
  have htype : Changes w (w.typedMessage clock text).2 :=
    Keeps.changes ⟨fun _ => rfl, fun _ => rfl, Nat.le_succ _, Nat.le_succ _⟩
  exact htype.trans changes_sendLine

/-- Numbers that were given out stay given out. -/
theorem Changes.sequence_le (h : Changes w w') : w.localMessageSequence ≤ w'.localMessageSequence := by
  induction h with
  | refl => exact le_rfl
  | tail _ hchange ih =>
    refine ih.trans ?_
    cases hchange with
    | keep h => exact h.sequence
    | store type id stored markUnread h =>
      rw [storeMessage]
      split_ifs <;> exact le_rfl

theorem keyed_typedMessage {text : QString} : Keyed (w.afterSending clock text) (w.typedMessage clock text).1 := by
  have hkeyed : Keyed (w.typedMessage clock text).2 (w.typedMessage clock text).1 := .inr ⟨_, le_rfl, rfl⟩
  exact hkeyed.mono changes_sendLine.sequence_le

theorem changes_sendCurrentMessage {text : QString} : Changes w (w.sendCurrentMessage clock text) := by
  rw [sendCurrentMessage]
  split_ifs
  · exact .refl
  · exact changes_afterSending.trans (changes_addMessageToConversation (.inr keyed_typedMessage))

theorem changes_showInfo {text : QString} : Changes w (w.showInfo clock text) := by
  rw [showInfo]
  split_ifs
  · exact changes_request rfl rfl rfl
  · have hlist : Changes w (w.addRoomIfMissing w.pendingJoinRoom) := changes_addRoomIfMissing
    have hclear : Changes (w.addRoomIfMissing w.pendingJoinRoom)
        { w.addRoomIfMissing w.pendingJoinRoom with pendingJoinRoom := [] } := changes_of_eq rfl rfl rfl
    exact ((hlist.trans hclear).trans changes_selectConversation).trans changes_appendMessage
  · have hlist : Changes w (w.removeRoom clock w.pendingLeaveRoom) := changes_removeRoom
    have hclear : Changes (w.removeRoom clock w.pendingLeaveRoom)
        { w.removeRoom clock w.pendingLeaveRoom with pendingLeaveRoom := [] } := changes_of_eq rfl rfl rfl
    exact (hlist.trans hclear).trans changes_appendMessage
  · exact .refl
  · exact changes_appendMessage

theorem changes_eventMessage : Changes w (w.eventMessage clock message).2 := by
  by_cases htime : message.createdAt > 0
  · rw [eventMessage, if_pos htime]
  · rw [eventMessage, if_neg htime]
    exact Keeps.changes ⟨fun _ => rfl, fun _ => rfl, le_rfl, Nat.le_succ _⟩

/-- The key of the database, or none yet. -/
theorem dbKey_or_nil (v : MainWindow) {n : ℤ} (hid : message.id = n)
    (hkey : message.dedupeKey = if n > 0 then dbKey n else []) : message.dedupeKey = [] ∨ Keyed v message := by
  split_ifs at hkey with hpos
  · exact .inr (.inl ⟨hid ▸ hpos, hid ▸ hkey⟩)
  · exact .inl hkey

theorem changes_handlePrivateMessage {sender text : QString} {n createdAt : ℤ} :
    Changes w (w.handlePrivateMessage clock sender text n createdAt) :=
  (changes_addUserIfMissing.trans changes_eventMessage).trans
    (changes_addMessageToConversation (dbKey_or_nil _ rfl rfl))

theorem changes_handleRoomMessage {room sender text : QString} {n createdAt : ℤ} :
    Changes w (w.handleRoomMessage clock room sender text n createdAt) := by
  rw [handleRoomMessage]
  split_ifs
  · exact .refl
  · exact (changes_addRoomIfMissing.trans changes_eventMessage).trans
      (changes_addMessageToConversation (dbKey_or_nil _ rfl rfl))

theorem changes_mergeItem {value : QJsonValue} : Changes w (w.mergeItem clock type id value) := by
  cases value with
  | object members =>
    rw [mergeItem]
    split_ifs
    · exact changes_addMessageToConversation (dbKey_or_nil _ rfl rfl)
    · exact .refl
  | _ => exact .refl

theorem changes_merge (values : List QJsonValue) :
    Changes w (values.foldl (fun w value => w.mergeItem clock type id value) w) := by
  induction values generalizing w with
  | nil => exact .refl
  | cons value values ih => exact changes_mergeItem.trans ih

theorem changes_handleDisconnected : Changes w (w.handleDisconnected clock) := by
  have hreset : Changes w { w with connected := false, currentUsername := [] } := changes_of_eq rfl rfl rfl
  exact hreset.trans changes_appendMessage

theorem changes_handleOk {text : QString} : Changes w (w.handleOk clock text) := by
  by_cases hlogin : "logged in as ".toList <+: text
  · rw [handleOk, if_pos hlogin]
    exact changes_of_eq rfl rfl rfl
  · have hlogout : Changes w (if text = "logged out".toList then { w with currentUsername := [] } else w) := by
      split_ifs
      · exact changes_of_eq rfl rfl rfl
      · exact .refl
    rw [handleOk, if_neg hlogin]
    exact hlogout.trans changes_showInfo

theorem changes_handleObject {object : QJsonObject} : Changes w (w.handleObject clock object) := by
  rw [handleObject]
  split_ifs
  · exact changes_handleOk
  · exact changes_showError
  · exact changes_updateUsers
  · exact changes_handlePrivateMessage
  · exact changes_handleRoomMessage
  · split
    · exact changes_merge _
    · exact changes_showError
  · split
    · exact changes_merge _
    · exact changes_showError
  · exact changes_showError

end MainWindow

open MainWindow

variable {clock : ℕ → ℤ} {w w' : MainWindow} {inputs : List Input}

variable (clock) in
/-- **Whatever happens**, messages are stored, and nothing else is done to conversations. -/
theorem changes_step (input : Input) : Changes w (step clock w input) := by
  cases input with
  | refreshUsers => exact changes_sendLine
  | createRoom room => exact changes_createRoom
  | joinRoom room => exact changes_joinRoom
  | leaveRoom room => exact changes_leaveRoom
  | selectConversation type id => exact changes_selectConversation
  | sendCurrentMessage text => exact changes_sendCurrentMessage
  | object object => exact changes_handleObject
  | invalidLine error => exact changes_showError
  | connectionError error => exact changes_showError
  | disconnected => exact changes_handleDisconnected

theorem changes_run (inputs : List Input) : Changes w (run clock w inputs) := by
  induction inputs generalizing w with
  | nil => exact .refl
  | cons input inputs ih => exact (changes_step clock input).trans ih

/-! ### What holds of every window -/

/-- What holds of the conversations. -/
structure WellKept (w : MainWindow) : Prop where
  log : ∀ key, IsLog (w.messages key)
  known : ∀ key, Known (w.conversations key)
  keyed : ∀ key, ∀ message ∈ w.messages key, Keyed w message

theorem WellKept.keep (h : WellKept w) (hkeeps : Keeps w w') : WellKept w' := by
  have hmessages : ∀ key, w'.messages key = w.messages key := hkeeps.messages
  refine ⟨fun key => ?_, fun key k => ?_, fun key message hmem => ?_⟩
  · rw [hmessages]
    exact h.log key
  · rw [hkeeps.messageKeys, hkeeps.messages]
    exact h.known key k
  · rw [hmessages] at hmem
    exact (h.keyed key message hmem).mono hkeeps.sequence

theorem storeMessage_sequence {type : ConversationType} {id : QString} {stored : ChatMessage} {markUnread : Bool} :
    (w.storeMessage type id stored markUnread).localMessageSequence = w.localMessageSequence := by
  rw [storeMessage]
  split_ifs <;> rfl

/-- What is in a conversation when a message was stored. -/
theorem WellKept.mem_store (h : WellKept w) {type : ConversationType} {id : QString} {stored message : ChatMessage}
    {markUnread : Bool} {key : QString} (hmem : message ∈ (w.storeMessage type id stored markUnread).messages key) :
    message ∈ w.messages key ∨ message = stored := by
  by_cases heq : key = conversationKey type id
  · subst heq
    rw [storeMessage_messages (h.known _)] at hmem
    exact (SortedLog.mem_add.mp hmem).imp_right And.left
  · rw [MainWindow.messages, storeMessage_of_ne heq] at hmem
    exact .inl hmem

theorem WellKept.store (h : WellKept w) {type : ConversationType} {id : QString} {stored : ChatMessage}
    {markUnread : Bool} (hkeyed : Keyed w stored) : WellKept (w.storeMessage type id stored markUnread) := by
  refine ⟨fun key => ?_, fun key => ?_, fun key message hmem => ?_⟩
  · by_cases heq : key = conversationKey type id
    · subst heq
      rw [storeMessage_messages (h.known _)]
      exact (h.log _).add stored
    · rw [MainWindow.messages, storeMessage_of_ne heq]
      exact h.log key
  · by_cases heq : key = conversationKey type id
    · subst heq
      exact storeMessage_known (h.known _)
    · rw [storeMessage_of_ne heq]
      exact h.known key
  · have hle : w.localMessageSequence ≤ (w.storeMessage type id stored markUnread).localMessageSequence :=
      storeMessage_sequence.ge
    rcases h.mem_store hmem with hmem | rfl
    · exact (h.keyed key message hmem).mono hle
    · exact hkeyed.mono hle

theorem WellKept.changes (h : WellKept w) (hchanges : Changes w w') : WellKept w' := by
  induction hchanges with
  | refl => exact h
  | tail _ hchange ih =>
    cases hchange with
    | keep hkeeps => exact ih.keep hkeeps
    | store type id stored markUnread hkeyed => exact ih.store hkeyed

end Qt

end ChatService
