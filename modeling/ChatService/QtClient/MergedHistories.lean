import ChatService.QtClient.Conversations
import Mathlib.Data.List.Dedup

/-!
# Histories and live events

The stored messages of a conversation come to the Qt client in two ways: as elements of history pages, with
their numbers as JSON numbers, and as live events, with their numbers as strings.  Both ways make the same
key of the id, so that a message is stored once however often it arrives.

* `history_order` — when every stored message has arrived, an empty conversation has become the history, in
  the server's order, and one call a message has added something.
-/

namespace ChatService

namespace Qt

open MainWindow

/-- A message as the server has stored it. -/
structure StoredMessage where
  id : ℤ
  sender : QString
  receiver : QString
  room : QString
  content : QString
  createdAt : ℤ
deriving DecidableEq

/-- A conversation, by its name. -/
inductive Chat where
  | peer (name : QString)
  | room (name : QString)
deriving DecidableEq

namespace Chat

def type : Chat → ConversationType
  | .peer _ => .privateChat
  | .room _ => .roomChat

def name : Chat → QString
  | .peer name => name
  | .room name => name

def key (chat : Chat) : QString := conversationKey chat.type chat.name

/-- The members of an element of a history page. -/
def members (chat : Chat) (m : StoredMessage) : QJsonObject :=
  match chat with
  | .peer _ =>
    [("id".toList, .double (Doubles.round m.id)), ("sender".toList, .string m.sender),
      ("receiver".toList, .string m.receiver), ("content".toList, .string m.content),
      ("created_at".toList, .double (Doubles.round m.createdAt))]
  | .room _ =>
    [("id".toList, .double (Doubles.round m.id)), ("sender".toList, .string m.sender),
      ("room".toList, .string m.room), ("content".toList, .string m.content),
      ("created_at".toList, .double (Doubles.round m.createdAt))]

/-- A history response. -/
def page (chat : Chat) (messages : List StoredMessage) : QJsonObject :=
  match chat with
  | .peer name =>
    [("type".toList, .string "history_private_result".toList), ("peer".toList, .string name),
      ("messages".toList, .array (messages.map fun m => .object (chat.members m)))]
  | .room name =>
    [("type".toList, .string "history_room_result".toList), ("room".toList, .string name),
      ("messages".toList, .array (messages.map fun m => .object (chat.members m)))]

/-- A live event. -/
def event (chat : Chat) (m : StoredMessage) : QJsonObject :=
  match chat with
  | .peer _ =>
    [("created_at".toList, .string (number m.createdAt)), ("from".toList, .string m.sender),
      ("id".toList, .string (number m.id)), ("message".toList, .string m.content),
      ("type".toList, .string "private".toList)]
  | .room name =>
    [("created_at".toList, .string (number m.createdAt)), ("from".toList, .string m.sender),
      ("id".toList, .string (number m.id)), ("message".toList, .string m.content), ("room".toList, .string name),
      ("type".toList, .string "room".toList)]

/-- A private event is in the conversation with its sender; a room event counts if it is another user's. -/
def Delivers (chat : Chat) (username : QString) (m : StoredMessage) : Prop :=
  match chat with
  | .peer name => m.sender = name
  | .room _ => m.sender ≠ username

end Chat

/-- How messages arrive. -/
inductive Arrival where
  | page (messages : List StoredMessage)
  | event (message : StoredMessage)

namespace Arrival

def messages : Arrival → List StoredMessage
  | .page messages => messages
  | .event message => [message]

/-- The line of the server, as an input of the window. -/
def input (chat : Chat) : Arrival → Input
  | .page messages => .object (chat.page messages)
  | .event message => .object (chat.event message)

end Arrival

/-- What the server stores, with numbers that are doubles. -/
structure StoredMessage.Proper (m : StoredMessage) : Prop where
  id_pos : 0 < m.id
  id_lt : m.id < 2 ^ 53
  createdAt_pos : 0 < m.createdAt
  createdAt_lt : m.createdAt < 2 ^ 53
  sender_ne : m.sender ≠ []
  content_ne : m.content ≠ []

/-- The server's order. -/
def StoredMessage.Before (x y : StoredMessage) : Prop :=
  x.createdAt < y.createdAt ∨ x.createdAt = y.createdAt ∧ x.id < y.id

/-! ### One message arrives -/

/-- The message has the time and the id of the stored one, and the key of the id. -/
structure Shows (shown : ChatMessage) (m : StoredMessage) : Prop where
  id : shown.id = m.id
  createdAt : shown.createdAt = m.createdAt
  dedupeKey : shown.dedupeKey = dbKey m.id

/-- Messages have been added to this conversation, and to no other. -/
structure Arrived (key : QString) (w w' : MainWindow) (added : List ChatMessage) : Prop where
  known : Known (w'.conversations key)
  messages : w'.messages key = SortedLog.collect ChatMessage.dedupeKey rank (w.messages key) added
  additions : w'.additions + (w.messages key).length = w.additions + (w'.messages key).length
  username : w'.currentUsername = w.currentUsername

section

variable {clock : ℕ → ℤ} {w w' w'' : MainWindow} {key : QString} {chat : Chat} {m : StoredMessage}
  {added added' : List ChatMessage} {message : ChatMessage} {markUnread : Bool}

theorem Arrived.refl (h : Known (w.conversations key)) : Arrived key w w [] := ⟨h, rfl, rfl, rfl⟩

theorem Arrived.trans (h : Arrived key w w' added) (h' : Arrived key w' w'' added') :
    Arrived key w w'' (added ++ added') := by
  refine ⟨h'.known, ?_, ?_, h'.username.trans h.username⟩
  · rw [h'.messages, h.messages, SortedLog.collect, SortedLog.collect, SortedLog.collect, List.foldl_append]
  · have hfirst := h.additions
    have hsecond := h'.additions
    omega

/-- Fields that are not about conversations may change. -/
theorem Arrived.of_eq (h : Known (w.conversations key)) (hconversations : w'.conversations = w.conversations)
    (hadditions : w'.additions = w.additions) (husername : w'.currentUsername = w.currentUsername) :
    Arrived key w w' [] := by
  have hmessages : w'.messages key = w.messages key := by rw [MainWindow.messages, hconversations]; rfl
  refine ⟨hconversations ▸ h, hmessages, ?_, husername⟩
  rw [hadditions, hmessages]

theorem storeMessage_currentUsername {type : ConversationType} {id : QString} {stored : ChatMessage} :
    (w.storeMessage type id stored markUnread).currentUsername = w.currentUsername := by
  rw [storeMessage]
  split_ifs <;> rfl

/-- A message that has a time and a key is added as it is. -/
theorem arrived_addMessageToConversation (h : Known (w.conversations chat.key)) (htime : 0 < message.createdAt)
    (hkey : message.dedupeKey ≠ []) :
    Arrived chat.key w (w.addMessageToConversation clock chat.type chat.name message markUnread) [message] := by
  have hensure : Keeps w (w.ensureConversation chat.type chat.name) := keeps_ensureConversation
  have hmessages : (w.ensureConversation chat.type chat.name).messages chat.key = w.messages chat.key :=
    hensure.messages chat.key
  have hknown : Known ((w.ensureConversation chat.type chat.name).conversations chat.key) := by
    intro k
    rw [hensure.messageKeys, hensure.messages]
    exact h k
  have heq : w.addMessageToConversation clock chat.type chat.name message markUnread =
      (w.ensureConversation chat.type chat.name).storeMessage chat.type chat.name message markUnread := by
    rw [addMessageToConversation, stampMessage, if_neg (not_le.mpr htime)]
    simp only [keyMessage, if_neg hkey]
  rw [heq]
  refine ⟨storeMessage_known hknown, ?_, ?_, storeMessage_currentUsername⟩
  · rw [Chat.key, storeMessage_messages hknown, ← Chat.key, hmessages]
    rfl
  · rw [← hmessages]
    exact storeMessage_additions hknown

theorem dbKey_ne_nil (id : ℤ) : dbKey id ≠ [] := by
  rw [dbKey]
  exact List.append_ne_nil_of_left_ne_nil (by decide) _

theorem Shows.dedupeKey_ne {shown : ChatMessage} (h : Shows shown m) : shown.dedupeKey ≠ [] := by
  rw [h.dedupeKey]
  exact dbKey_ne_nil _

/-- A positive number below `2 ^ 53` is read from a JSON number and from a string. -/
theorem int64Value_of_double {object : QJsonObject} {field : String} {n : ℤ}
    (h : value object field = .double (Doubles.round n)) (hpos : 0 < n) (hlt : n < 2 ^ 53) :
    int64Value object field 0 = n :=
  int64Value_double h (abs_lt.mpr ⟨by omega, hlt⟩) 0

theorem int64Value_of_string {object : QJsonObject} {field : String} {n : ℤ}
    (h : value object field = .string (number n)) (hpos : 0 < n) (hlt : n < 2 ^ 53) :
    int64Value object field 0 = n :=
  int64Value_string h (by omega) (by omega) 0

/-- An element of a page shows its message. -/
theorem shows_historyMessage (hm : m.Proper) :
    Shows (w.historyMessage chat.type chat.name (chat.members m)) m := by
  have hid : value (chat.members m) "id" = .double (Doubles.round m.id) := by cases chat <;> rfl
  have htime : value (chat.members m) "created_at" = .double (Doubles.round m.createdAt) := by cases chat <;> rfl
  have hnumber := int64Value_of_double hid hm.id_pos hm.id_lt
  refine ⟨hnumber, int64Value_of_double htime hm.createdAt_pos hm.createdAt_lt, ?_⟩
  show (if int64Value (chat.members m) "id" 0 > 0 then dbKey (int64Value (chat.members m) "id" 0) else []) = _
  rw [hnumber, if_pos hm.id_pos]

variable (clock) in
/-- **A page element arrives.** -/
theorem arrived_mergeItem (h : Known (w.conversations chat.key)) (hm : m.Proper) :
    ∃ shown, Shows shown m ∧
      Arrived chat.key w (w.mergeItem clock chat.type chat.name (.object (chat.members m))) [shown] := by
  have hshows : Shows (w.historyMessage chat.type chat.name (chat.members m)) m := shows_historyMessage hm
  refine ⟨_, hshows, ?_⟩
  have hcheck : (w.historyMessage chat.type chat.name (chat.members m)).sender ≠ [] ∧
      (w.historyMessage chat.type chat.name (chat.members m)).content ≠ [] := by
    have hsender : (w.historyMessage chat.type chat.name (chat.members m)).sender = m.sender := by cases chat <;> rfl
    have hcontent : (w.historyMessage chat.type chat.name (chat.members m)).content = m.content := by
      cases chat <;> rfl
    exact ⟨hsender ▸ hm.sender_ne, hcontent ▸ hm.content_ne⟩
  rw [mergeItem, if_pos hcheck]
  exact arrived_addMessageToConversation h (hshows.createdAt ▸ hm.createdAt_pos) hshows.dedupeKey_ne

variable (clock) in
/-- A page arrives element by element. -/
theorem arrived_merge {ms : List StoredMessage} (h : Known (w.conversations chat.key)) (hms : ∀ m ∈ ms, m.Proper) :
    ∃ shown, List.Forall₂ Shows shown ms ∧ Arrived chat.key w
      ((ms.map fun m => .object (chat.members m)).foldl
        (fun w value => w.mergeItem clock chat.type chat.name value) w) shown := by
  induction ms generalizing w with
  | nil => exact ⟨[], .nil, .refl h⟩
  | cons m ms ih =>
    obtain ⟨hm, hms⟩ := List.forall_mem_cons.mp hms
    obtain ⟨shown, hshows, harrived⟩ := arrived_mergeItem clock h hm
    obtain ⟨rest, hrest, harrived'⟩ := ih harrived.known hms
    exact ⟨shown :: rest, .cons hshows hrest, harrived.trans harrived'⟩

variable (clock message markUnread) in
/-- The message of an event is added with its time and the key of its id. -/
theorem arrived_eventMessage (h : Known (w.conversations chat.key)) (hid : message.id = m.id)
    (htime : message.createdAt = m.createdAt) (hm : m.Proper) :
    ∃ shown, Shows shown m ∧ Arrived chat.key w ((w.eventMessage clock message).2.addMessageToConversation clock
      chat.type chat.name (w.eventMessage clock message).1 markUnread) [shown] := by
  have hpos : message.createdAt > 0 := htime ▸ hm.createdAt_pos
  have hevent : w.eventMessage clock message = ({ message with dedupeKey := dbKey m.id }, w) := by
    rw [eventMessage, if_pos hpos]
    simp only [hid, if_pos hm.id_pos]
  have hshows : Shows { message with dedupeKey := dbKey m.id } m := ⟨hid, htime, rfl⟩
  rw [hevent]
  exact ⟨_, hshows, arrived_addMessageToConversation h hpos hshows.dedupeKey_ne⟩

theorem addUserIfMissing_eq (w : MainWindow) (username : QString) :
    (w.addUserIfMissing username).conversations = w.conversations ∧
    (w.addUserIfMissing username).additions = w.additions ∧
    (w.addUserIfMissing username).currentUsername = w.currentUsername := by
  rw [addUserIfMissing]
  split_ifs <;> exact ⟨rfl, rfl, rfl⟩

theorem addRoomIfMissing_eq (w : MainWindow) (room : QString) :
    (w.addRoomIfMissing room).conversations = w.conversations ∧
    (w.addRoomIfMissing room).additions = w.additions ∧
    (w.addRoomIfMissing room).currentUsername = w.currentUsername := by
  rw [addRoomIfMissing]
  split_ifs <;> exact ⟨rfl, rfl, rfl⟩

variable (clock) in
/-- **A live event arrives.** -/
theorem arrived_event (h : Known (w.conversations chat.key)) (hm : m.Proper)
    (hdelivers : chat.Delivers w.currentUsername m) :
    ∃ shown, Shows shown m ∧ Arrived chat.key w (w.handleObject clock (chat.event m)) [shown] := by
  have hid : int64Value (chat.event m) "id" 0 = m.id :=
    int64Value_of_string (by cases chat <;> rfl) hm.id_pos hm.id_lt
  have htime : int64Value (chat.event m) "created_at" 0 = m.createdAt :=
    int64Value_of_string (by cases chat <;> rfl) hm.createdAt_pos hm.createdAt_lt
  cases chat with
  | peer name =>
    have hsender : m.sender = name := hdelivers
    have hhandle : w.handleObject clock (Chat.event (.peer name) m) =
        w.handlePrivateMessage clock m.sender m.content (int64Value (Chat.event (.peer name) m) "id" 0)
          (int64Value (Chat.event (.peer name) m) "created_at" 0) := rfl
    obtain ⟨hconversations, hadditions, husername⟩ := addUserIfMissing_eq w m.sender
    have hlist := Arrived.of_eq h hconversations hadditions husername
    rw [hhandle, hid, htime, handlePrivateMessage, hsender]
    rw [hsender] at hlist
    obtain ⟨shown, hshows, hadd⟩ := arrived_eventMessage clock
      { id := m.id, sender := name, receiver := (w.addUserIfMissing name).currentUsername, content := m.content,
        createdAt := m.createdAt } true hlist.known rfl rfl hm
    exact ⟨shown, hshows, hlist.trans hadd⟩
  | room name =>
    have hother : ¬ m.sender = w.currentUsername := hdelivers
    have hhandle : w.handleObject clock (Chat.event (.room name) m) =
        w.handleRoomMessage clock name m.sender m.content (int64Value (Chat.event (.room name) m) "id" 0)
          (int64Value (Chat.event (.room name) m) "created_at" 0) := rfl
    obtain ⟨hconversations, hadditions, husername⟩ := addRoomIfMissing_eq w name
    have hlist := Arrived.of_eq h hconversations hadditions husername
    rw [hhandle, hid, htime, handleRoomMessage, if_neg hother]
    obtain ⟨shown, hshows, hadd⟩ := arrived_eventMessage clock
      { id := m.id, sender := m.sender, room := name, content := m.content, createdAt := m.createdAt } true
      hlist.known rfl rfl hm
    exact ⟨shown, hshows, hlist.trans hadd⟩

variable (clock) in
/-- **An arrival arrives.** -/
theorem arrived_step {arrival : Arrival} (h : Known (w.conversations chat.key))
    (hms : ∀ m ∈ arrival.messages, m.Proper)
    (hdelivers : ∀ m, arrival = .event m → chat.Delivers w.currentUsername m) :
    ∃ shown, List.Forall₂ Shows shown arrival.messages ∧
      Arrived chat.key w (step clock w (arrival.input chat)) shown := by
  cases arrival with
  | page ms =>
    obtain ⟨shown, hshows, harrived⟩ := arrived_merge clock h hms
    refine ⟨shown, hshows, ?_⟩
    cases chat <;> exact harrived
  | event m =>
    obtain ⟨shown, hshows, harrived⟩ :=
      arrived_event clock h (hms m List.mem_cons_self) (hdelivers m rfl)
    exact ⟨[shown], .cons hshows .nil, harrived⟩

variable (clock) in
theorem arrived_run {arrivals : List Arrival} (h : Known (w.conversations chat.key))
    (hms : ∀ m ∈ arrivals.flatMap Arrival.messages, m.Proper)
    (hdelivers : ∀ m, Arrival.event m ∈ arrivals → chat.Delivers w.currentUsername m) :
    ∃ shown, List.Forall₂ Shows shown (arrivals.flatMap Arrival.messages) ∧
      Arrived chat.key w (run clock w (arrivals.map (Arrival.input chat))) shown := by
  induction arrivals generalizing w with
  | nil => exact ⟨[], .nil, .refl h⟩
  | cons arrival arrivals ih =>
    rw [List.flatMap_cons] at hms ⊢
    obtain ⟨hfirst, hrest⟩ := List.forall_mem_append.mp hms
    obtain ⟨shown, hshows, harrived⟩ := arrived_step clock h hfirst
      fun m heq => hdelivers m (heq ▸ List.mem_cons_self)
    obtain ⟨shown', hshows', harrived'⟩ := ih harrived.known hrest
      fun m hm => harrived.username ▸ hdelivers m (List.mem_cons_of_mem _ hm)
    exact ⟨shown ++ shown', List.rel_append hshows hshows', harrived.trans harrived'⟩

end

/-! ### Everything has arrived -/

/-- Time and id. -/
def ChatMessage.stamp (message : ChatMessage) : ℤ × ℤ := (message.createdAt, message.id)

def StoredMessage.stamp (m : StoredMessage) : ℤ × ℤ := (m.createdAt, m.id)

abbrev IsStampLog (stamps : List (ℤ × ℤ)) : Prop := SortedLog.IsLog Prod.snd (fun stamp => toLex stamp) stamps

/-- In a conversation of stored messages, times and ids ascend. -/
theorem isStampLog_messages {messages : List ChatMessage} (h : IsLog messages)
    (hkeys : ∀ x ∈ messages, x.dedupeKey = dbKey x.id) : IsStampLog (messages.map ChatMessage.stamp) := by
  refine ⟨List.pairwise_map.mpr (h.sorted.imp fun {x y} hle => ?_), ?_⟩
  · rw [Prod.Lex.toLex_le_toLex]
    rcases Prod.Lex.toLex_le_toLex.mp hle with hlt | ⟨heq, hle⟩
    · exact .inl hlt
    · refine .inr ⟨heq, ?_⟩
      rcases Prod.Lex.toLex_le_toLex.mp hle with hlt | ⟨heq, -⟩
      · exact hlt.le
      · exact heq.le
  · rw [List.map_map]
    have hnodup : (messages.map fun x => dbKey x.id).Nodup := (List.map_congr_left hkeys) ▸ h.nodup
    exact List.Nodup.of_map (f := dbKey) (by rwa [List.map_map])

theorem isStampLog_history {history : List StoredMessage} (hids : (history.map StoredMessage.id).Nodup)
    (horder : history.Pairwise StoredMessage.Before) : IsStampLog (history.map StoredMessage.stamp) := by
  refine ⟨List.pairwise_map.mpr (horder.imp fun {x y} hbefore => ?_), by rwa [List.map_map]⟩
  rw [Prod.Lex.toLex_le_toLex]
  exact hbefore.imp_right fun h => ⟨h.1, h.2.le⟩

theorem mem_of_forall₂ {shown : List ChatMessage} {ms : List StoredMessage} (h : List.Forall₂ Shows shown ms) :
    (∀ x ∈ shown, ∃ m ∈ ms, Shows x m) ∧ ∀ m ∈ ms, ∃ x ∈ shown, Shows x m := by
  induction h with
  | nil => exact ⟨fun x hx => absurd hx List.not_mem_nil, fun m hm => absurd hm List.not_mem_nil⟩
  | @cons x m shown ms hshows _ ih =>
    refine ⟨List.forall_mem_cons.mpr ⟨⟨m, List.mem_cons_self, hshows⟩, fun y hy => ?_⟩,
      List.forall_mem_cons.mpr ⟨⟨x, List.mem_cons_self, hshows⟩, fun n hn => ?_⟩⟩
    · obtain ⟨n, hn, hyn⟩ := ih.1 y hy
      exact ⟨n, List.mem_cons_of_mem _ hn, hyn⟩
    · obtain ⟨y, hy, hyn⟩ := ih.2 n hn
      exact ⟨y, List.mem_cons_of_mem _ hy, hyn⟩

/-- What is collected from the arrivals is the history. -/
theorem stamps_collect {history : List StoredMessage} {shown : List ChatMessage} {ms : List StoredMessage}
    (hproper : ∀ m ∈ history, m.Proper) (hids : (history.map StoredMessage.id).Nodup)
    (horder : history.Pairwise StoredMessage.Before) (hshown : List.Forall₂ Shows shown ms)
    (hfrom : ∀ m ∈ ms, m ∈ history) (hall : ∀ m ∈ history, m ∈ ms) :
    (SortedLog.collect ChatMessage.dedupeKey rank [] shown).map ChatMessage.stamp =
      history.map StoredMessage.stamp := by
  obtain ⟨hshows, hcover⟩ := mem_of_forall₂ hshown
  have hstored : ∀ x ∈ SortedLog.collect ChatMessage.dedupeKey rank [] shown, ∃ m ∈ history, Shows x m := by
    intro x hx
    rcases SortedLog.mem_or_mem_of_mem_collect hx with hx | hx
    · exact absurd hx List.not_mem_nil
    · obtain ⟨m, hm, hxm⟩ := hshows x hx
      exact ⟨m, hfrom m hm, hxm⟩
  have hlog : IsStampLog ((SortedLog.collect ChatMessage.dedupeKey rank [] shown).map ChatMessage.stamp) := by
    refine isStampLog_messages (SortedLog.isLog_nil.collect shown) fun x hx => ?_
    obtain ⟨m, -, hxm⟩ := hstored x hx
    rw [hxm.dedupeKey, hxm.id]
  have hstamp : ∀ {x m}, Shows x m → x.stamp = m.stamp := by
    intro x m h
    rw [ChatMessage.stamp, StoredMessage.stamp, h.createdAt, h.id]
  refine hlog.ext (fun s t h => congrArg Prod.snd (toLex.injective h)) (isStampLog_history hids horder) ?_
  intro stamp
  rw [List.mem_map, List.mem_map]
  constructor
  · rintro ⟨x, hx, rfl⟩
    obtain ⟨m, hm, hxm⟩ := hstored x hx
    exact ⟨m, hm, (hstamp hxm).symm⟩
  · rintro ⟨m, hm, rfl⟩
    obtain ⟨x, hx, hxm⟩ := hcover m (hall m hm)
    -- some arrival with the key of `m` is kept, and it shows `m`
    have hkey : x.dedupeKey ∈ (SortedLog.collect ChatMessage.dedupeKey rank [] shown).map ChatMessage.dedupeKey :=
      SortedLog.mem_keys_collect.mpr (.inr (List.mem_map_of_mem hx))
    obtain ⟨y, hy, hyx⟩ := List.mem_map.mp hkey
    obtain ⟨n, hn, hyn⟩ := hstored y hy
    have hnumber : number n.id = number m.id := by
      have hkeys : dbKey n.id = dbKey m.id := (hyn.dedupeKey.symm.trans hyx).trans hxm.dedupeKey
      exact List.append_cancel_left hkeys
    have hid := number_inj (hproper n hn).id_pos.le (hproper m hm).id_pos.le hnumber
    have hnm : n = m := List.inj_on_of_nodup_map hids hn hm hid
    exact ⟨y, hy, hnm ▸ hstamp hyn⟩

/-- **An empty conversation becomes the history.**  The history lists the stored messages of the conversation
in the server's order.  Whatever pages and events they arrive in, in any order and however often: when each has
arrived, the conversation lists their ids in that order, each once, and one call a message has added one. -/
theorem history_order (clock : ℕ → ℤ) (w : MainWindow) (chat : Chat) (history : List StoredMessage)
    (arrivals : List Arrival)
    (hempty : (w.conversations chat.key).messages = [] ∧ (w.conversations chat.key).messageKeys = [])
    (hproper : ∀ m ∈ history, m.Proper) (hids : (history.map StoredMessage.id).Nodup)
    (horder : history.Pairwise StoredMessage.Before)
    (hfrom : ∀ m ∈ arrivals.flatMap Arrival.messages, m ∈ history)
    (hall : ∀ m ∈ history, m ∈ arrivals.flatMap Arrival.messages)
    (hdelivers : ∀ m, Arrival.event m ∈ arrivals → chat.Delivers w.currentUsername m) :
    ((run clock w (arrivals.map (Arrival.input chat))).messages chat.key).map ChatMessage.id =
        history.map StoredMessage.id ∧
      (run clock w (arrivals.map (Arrival.input chat))).additions =
        w.additions + (history.map StoredMessage.id).dedup.length := by
  have hknown : Known (w.conversations chat.key) := by
    intro key
    rw [hempty.1, hempty.2]
    exact Iff.rfl
  obtain ⟨shown, hshown, harrived⟩ := arrived_run clock hknown
    (fun m hm => hproper m (hfrom m hm)) hdelivers
  have hmessages : (run clock w (arrivals.map (Arrival.input chat))).messages chat.key =
      SortedLog.collect ChatMessage.dedupeKey rank [] shown := by
    rw [harrived.messages, MainWindow.messages, hempty.1]
  have hstamps := stamps_collect hproper hids horder hshown hfrom hall
  rw [← hmessages] at hstamps
  have hlength : ((run clock w (arrivals.map (Arrival.input chat))).messages chat.key).length = history.length := by
    have hlengths := congrArg List.length hstamps
    rwa [List.length_map, List.length_map] at hlengths
  constructor
  · have hseconds := congrArg (List.map Prod.snd) hstamps
    rwa [List.map_map, List.map_map] at hseconds
  · have hadditions := harrived.additions
    have hstart : (w.messages chat.key).length = 0 := by rw [MainWindow.messages, hempty.1]; rfl
    rw [List.Nodup.dedup hids, List.length_map]
    omega

/-- Two messages of one second, the later one first by an event, then both on a page. -/
def twoArrivals : List Arrival :=
  [.event ⟨10, "bob".toList, "ann".toList, [], "b".toList, 5⟩,
    .page [⟨9, "ann".toList, "bob".toList, [], "a".toList, 5⟩, ⟨10, "bob".toList, "ann".toList, [], "b".toList, 5⟩]]

theorem two_messages_merged :
    ((run (fun _ => 7) { currentUsername := "ann".toList }
      (twoArrivals.map (Arrival.input (.peer "bob".toList)))).messages "private:bob".toList).map ChatMessage.id =
        [9, 10] ∧
      (run (fun _ => 7) { currentUsername := "ann".toList }
        (twoArrivals.map (Arrival.input (.peer "bob".toList)))).additions = 0 + [(9 : ℤ), 10].dedup.length := by
  refine history_order (fun _ => 7) { currentUsername := "ann".toList } (.peer "bob".toList)
    [⟨9, "ann".toList, "bob".toList, [], "a".toList, 5⟩, ⟨10, "bob".toList, "ann".toList, [], "b".toList, 5⟩]
    twoArrivals ⟨rfl, rfl⟩ ?_ (by decide) ?_ (by decide) (by decide) ?_
  · simp only [List.forall_mem_cons]
    refine ⟨?_, ?_, by simp⟩
    · exact ⟨by decide, by decide, by decide, by decide, by decide, by decide⟩
    · exact ⟨by decide, by decide, by decide, by decide, by decide, by decide⟩
  · exact List.pairwise_pair.mpr (.inr ⟨rfl, by decide⟩)
  · intro m hm
    simp only [twoArrivals, List.mem_cons, Arrival.event.injEq, reduceCtorEq, List.not_mem_nil, or_false] at hm
    rw [hm]
    rfl

end Qt

end ChatService
