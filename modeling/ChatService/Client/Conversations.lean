import ChatService.Client.ChatState
import Mathlib.Logic.Relation

/-!
# What becomes of the conversations of the web client

Whatever the user does and the server says, a handler only stores messages, asks for histories, selects
conversations and sends other requests (`Change`, `changes_step`).  What holds of the conversations over a whole run
follows from that.

* `Consistent` — what every change keeps.
* `Changes.consistent` — so it holds in every run.
* `Changes.kept` — and a message that is shown stays.
-/

namespace ChatService

namespace Web

open Gateway (JsString isJsSpace)

/-! ### Keys -/

/-- The first letter tells the conversations of users from those of rooms. -/
theorem conversationKey_PRIVATE_ne_ROOM (id id' : JsString) :
    conversationKey .PRIVATE id ≠ conversationKey .ROOM id' := by
  intro h
  have hhead : some 'p' = some 'r' := congrArg List.head? h
  exact absurd hhead (by decide)

theorem conversationKey_inj {type type' : ConversationType} {id id' : JsString}
    (h : conversationKey type id = conversationKey type' id') : type = type' ∧ id = id' := by
  cases type with
  | PRIVATE =>
    cases type' with
    | PRIVATE => exact ⟨rfl, by simpa [conversationKey] using h⟩
    | ROOM => exact absurd h (conversationKey_PRIVATE_ne_ROOM id id')
  | ROOM =>
    cases type' with
    | PRIVATE => exact absurd h.symm (conversationKey_PRIVATE_ne_ROOM id' id)
    | ROOM => exact ⟨rfl, by simpa [conversationKey] using h⟩

theorem dbKey_ne_localKey (id : JsValue) (sequence : ℕ) : dbKey id ≠ localKey sequence := by
  intro h
  have hhead : some 'd' = some 'l' := congrArg List.head? h
  exact absurd hhead (by decide)

/-- The request for the history of a conversation. -/
def historyRequest (type : ConversationType) (id : JsString) : Request :=
  match type with
  | .PRIVATE => .historyPrivate id 50
  | .ROOM => .historyRoom id 50

/-- The request asks for no history. -/
def Request.Plain : Request → Prop
  | historyPrivate _ _ => False
  | historyRoom _ _ => False
  | _ => True

/-! ### What a handler can do -/

section

variable (clock : ℕ → ℤ) (Told : ConversationType → JsString → Message → Prop)

/-- What a handler can do, at each turn.  The server has told the browser of a message that has an id. -/
inductive Change : ChatState → ChatState → Prop where
  /-- neither the conversations nor the requests change -/
  | other {s s' : ChatState} (hconversations : s'.conversations = s.conversations) (hsent : s'.sent = s.sent)
      (hsequence : s'.localMessageSequence = s.localMessageSequence)
      (hcurrent : s'.current = s.current ∨ s'.current = none) : Change s s'
  | store {s : ChatState} {type : ConversationType} {id : JsString} {message : Message} (markUnread : Bool)
      (htold : message.id.truthy = true → Told type id message) :
      Change s (s.addMessageToConversation clock type id message markUnread)
  | send {s : ChatState} {request : Request} (hplain : request.Plain) :
      Change s { s with sent := s.sent ++ [request] }
  /-- the request for a history, if the socket is open -/
  | ask {s : ChatState} {type : ConversationType} {id : JsString} {requests : List Request}
      (hfirst : (s.conversations (conversationKey type id)).historyRequested = false)
      (hrequests : requests = [historyRequest type id] ∨ requests = []) :
      Change s
        { s.setConversation (conversationKey type id)
            { s.conversations (conversationKey type id) with historyRequested := true } with
          sent := s.sent ++ requests }
  | select {s : ChatState} (type : ConversationType) (id : JsString) :
      Change s
        { s.setConversation (conversationKey type id)
            { s.conversations (conversationKey type id) with unreadCount := 0 } with
          current := some (type, id) }

abbrev Changes : ChatState → ChatState → Prop := Relation.ReflTransGen (Change clock Told)

variable {clock Told} {s s' : ChatState}

theorem changes_other (hconversations : s'.conversations = s.conversations)
    (hsent : s'.sent = s.sent) (hsequence : s'.localMessageSequence = s.localMessageSequence)
    (hcurrent : s'.current = s.current ∨ s'.current = none) : Changes clock Told s s' :=
  .single (.other hconversations hsent hsequence hcurrent)

/-- After a change of what else there is. -/
theorem changes_after {s'' : ChatState} (h : Changes clock Told s' s'')
    (hconversations : s'.conversations = s.conversations) (hsent : s'.sent = s.sent)
    (hsequence : s'.localMessageSequence = s.localMessageSequence)
    (hcurrent : s'.current = s.current ∨ s'.current = none) : Changes clock Told s s'' :=
  .head (.other hconversations hsent hsequence hcurrent) h

/-- A message without an id. -/
theorem changes_local {type : ConversationType} {id : JsString} {message : Message} (h : message.id.truthy = false)
    (markUnread : Bool) : Changes clock Told s (s.addMessageToConversation clock type id message markUnread) :=
  .single (.store markUnread fun htruthy => absurd (h.symm.trans htruthy) (by simp))

theorem changes_appendMessage (sender text : JsString) (kind : MessageKind) :
    Changes clock Told s (s.appendMessage clock sender text kind) := by
  rw [ChatState.appendMessage]
  split
  · exact .refl
  · exact changes_local rfl _

theorem changes_sendMessage {request : Request} (hplain : request.Plain) :
    Changes clock Told s (s.sendMessage clock request).2 := by
  rw [ChatState.sendMessage]
  split_ifs
  · exact .single (.send hplain)
  · exact changes_appendMessage _ _ _

theorem changes_sendCallMessage : Changes clock Told s (s.sendCallMessage clock) := by
  rw [ChatState.sendCallMessage]
  split_ifs
  · exact .refl
  · exact changes_appendMessage _ _ _

theorem changes_requestHistoryIfNeeded (type : ConversationType) (id : JsString) :
    Changes clock Told s (s.requestHistoryIfNeeded clock type id) := by
  rw [ChatState.requestHistoryIfNeeded]
  dsimp only
  split_ifs with hneeded
  · exact .refl
  · have hfirst : (s.conversations (conversationKey type id)).historyRequested = false := by
      simpa using (not_or.mp hneeded).1
    have hsend : ∀ request, request = historyRequest type id → Changes clock Told s
        ((s.setConversation (conversationKey type id) { s.conversations (conversationKey type id) with
          historyRequested := true }).sendMessage clock request).2 := by
      rintro request rfl
      rw [ChatState.sendMessage]
      split_ifs
      · exact .single (.ask hfirst (.inl rfl))
      · refine .head (.ask hfirst (.inr rfl)) ?_
        rw [List.append_nil]
        exact changes_appendMessage _ _ _
    cases type with
    | PRIVATE => exact hsend _ rfl
    | ROOM => exact hsend _ rfl

theorem changes_selectConversation (type : ConversationType) (id : JsString) :
    Changes clock Told s (s.selectConversation clock type id) := by
  rw [ChatState.selectConversation]
  split_ifs
  · exact changes_other rfl rfl rfl (.inr rfl)
  · refine .head (.select type id) (.trans ?_ (changes_requestHistoryIfNeeded type id))
    cases type with
    | PRIVATE => exact changes_other rfl rfl rfl (.inl rfl)
    | ROOM => exact changes_other rfl rfl rfl (.inl rfl)

/-! ### Every handler -/

/-- The object tells a user of a message of a conversation.  In a page the user's own messages are marked. -/
inductive Tells (username : JsString) (object : JsObject) : ConversationType → JsString → Message → Prop where
  | privateMessage (htype : textOf object "type" = "private".toList) :
      Tells username object .PRIVATE (textOf object "from") (ChatState.eventMessage object)
  | roomMessage (htype : textOf object "type" = "room".toList) :
      Tells username object .ROOM (textOf object "room") (ChatState.eventMessage object)
  | privateHistory (htype : textOf object "type" = "history_private_result".toList) {items : List JsObject}
      (hitems : member object "messages" = .array items) {item : JsObject} (hitem : item ∈ items) {s : ChatState}
      (hname : s.username = username) :
      Tells username object .PRIVATE (textOf object "peer") (s.historyMessage item)
  | roomHistory (htype : textOf object "type" = "history_room_result".toList) {items : List JsObject}
      (hitems : member object "messages" = .array items) {item : JsObject} (hitem : item ∈ items) {s : ChatState}
      (hname : s.username = username) :
      Tells username object .ROOM (textOf object "room") (s.historyMessage item)

theorem changes_handleOk (object : JsObject) : Changes clock Told s (s.handleOk clock object) := by
  have hother : ∀ (s : ChatState) text, Changes clock Told s (s.handleOtherOk clock text) := by
    intro s text
    rw [ChatState.handleOtherOk]
    split_ifs
    · exact .refl
    · exact changes_appendMessage _ _ _
  rw [ChatState.handleOk]
  by_cases hconnected : textOf object "message" = "connected".toList ∧ s.loggedIn = false
  · rw [if_pos hconnected]
  rw [if_neg hconnected]
  by_cases hlogin : "logged in as ".toList <+: textOf object "message"
  · rw [if_pos hlogin]
    exact changes_after (changes_sendMessage (by trivial)) rfl rfl rfl (.inl rfl)
  rw [if_neg hlogin]
  by_cases hlogout : textOf object "message" = "logged out".toList
  · rw [if_pos hlogout]
    exact changes_after (changes_appendMessage _ _ _) rfl rfl rfl (.inl rfl)
  rw [if_neg hlogout]
  split
  · next room mode hpending =>
    split_ifs
    · exact changes_after (changes_sendMessage (by trivial)) rfl rfl rfl (.inl rfl)
    · refine .trans ?_ (changes_appendMessage _ _ _)
      exact changes_after (changes_selectConversation .ROOM room) rfl rfl rfl (.inl rfl)
    · exact changes_other rfl rfl rfl (.inr rfl)
    · exact changes_other rfl rfl rfl (.inl rfl)
    · exact hother _ _
  · exact hother _ _

theorem changes_handleLoginOrMainError (text : JsString) :
    Changes clock Told s (s.handleLoginOrMainError clock text) := by
  rw [ChatState.handleLoginOrMainError]
  split_ifs
  · exact changes_appendMessage _ _ _
  · exact .refl

/-- A message of a page leaves the user's name as it is. -/
theorem username_mergeItem (type : ConversationType) (id : JsString) (item : JsObject) :
    (s.mergeItem clock type id item).username = s.username := by
  rw [ChatState.mergeItem]
  split_ifs
  · rfl
  · simp only [ChatState.addMessageToConversation, ChatState.stampOf, ChatState.keyOf, ChatState.storeMessage]
    split_ifs <;> rfl

/-- The loops over the messages of a page. -/
theorem changes_mergeItems {username : JsString} (hname : s.username = username) {type : ConversationType}
    {id : JsString} {items : List JsObject}
    (h : ∀ item ∈ items, ∀ s : ChatState, s.username = username → Told type id (s.historyMessage item)) :
    Changes clock Told s (items.foldl (fun s item => s.mergeItem clock type id item) s) := by
  induction items generalizing s with
  | nil => exact .refl
  | cons item items ih =>
    have hitem : Changes clock Told s (s.mergeItem clock type id item) := by
      rw [ChatState.mergeItem]
      split_ifs
      · exact .refl
      · exact .single (.store false fun _ => h item List.mem_cons_self s hname)
    exact hitem.trans (ih ((username_mergeItem type id item).trans hname) fun item hitem =>
      h item (List.mem_cons_of_mem _ hitem))

theorem changes_handleServerMessage {object : JsObject}
    (h : ∀ type id message, Tells s.username object type id message → Told type id message) :
    Changes clock Told s (s.handleServerMessage clock object) := by
  simp only [ChatState.handleServerMessage]
  split_ifs with hcall hok herror hempty husers hprivate hroom hprivateHistory hroomHistory
  · exact .refl
  · exact changes_handleOk object
  · exact changes_after (changes_handleLoginOrMainError _) rfl rfl rfl (.inl rfl)
  · exact changes_after (changes_handleLoginOrMainError _) rfl rfl rfl (.inl rfl)
  · exact changes_other rfl rfl rfl (.inl rfl)
  · simp only [ChatState.handlePrivateMessage]
    split_ifs
    · exact .refl
    · exact changes_after (.single (.store true fun _ => h _ _ _ (.privateMessage hprivate))) rfl rfl rfl (.inl rfl)
  · simp only [ChatState.handleRoomMessage]
    split_ifs
    · exact .refl
    · exact changes_after (.single (.store true fun _ => h _ _ _ (.roomMessage hroom))) rfl rfl rfl (.inl rfl)
  · simp only [ChatState.handlePrivateHistory]
    split
    · next items hitems =>
      split_ifs
      · exact changes_appendMessage _ _ _
      · exact changes_mergeItems rfl fun item hitem s hname =>
          h _ _ _ (.privateHistory hprivateHistory hitems hitem hname)
    · exact changes_appendMessage _ _ _
  · simp only [ChatState.handleRoomHistory]
    split
    · next items hitems =>
      split_ifs
      · exact changes_appendMessage _ _ _
      · have hmerge : ∀ item ∈ items, ∀ s' : ChatState, s'.username = s.username →
            Told .ROOM (textOf object "room") (s'.historyMessage item) :=
          fun item hitem s' hname => h _ _ _ (.roomHistory hroomHistory hitems hitem hname)
        exact changes_after (changes_mergeItems rfl hmerge) rfl rfl rfl (.inl rfl)
    · exact changes_appendMessage _ _ _
  · exact changes_appendMessage _ _ _
  · exact changes_appendMessage _ _ _

theorem changes_sendCurrentMessage (text : JsString) : Changes clock Told s (s.sendCurrentMessage clock text) := by
  simp only [ChatState.sendCurrentMessage]
  split
  · exact .refl
  · next type id hcurrent =>
    split_ifs with hempty hdone
    · exact .refl
    · refine .trans (changes_sendMessage ?_) (changes_after (changes_local rfl false) rfl rfl rfl (.inl rfl))
      cases type <;> trivial
    · refine changes_sendMessage ?_
      cases type <;> trivial

/-- **All that a step does** to the conversations and the requests. -/
theorem changes_step {input : Input} (h : ∀ object, input = .message object →
    ∀ type id message, Tells s.username object type id message → Told type id message) :
    Changes clock Told s (step clock s input) := by
  cases input with
  | refreshUsers => exact changes_sendMessage trivial
  | openRoomDialog mode => exact changes_other rfl rfl rfl (.inl rfl)
  | closeRoomDialog => exact changes_other rfl rfl rfl (.inl rfl)
  | submitRoomDialog room =>
    simp only [step, ChatState.submitRoomDialog]
    split_ifs
    · exact .refl
    · exact changes_after (changes_sendMessage (by trivial)) rfl rfl rfl (.inl rfl)
    · exact changes_after (changes_sendMessage (by trivial)) rfl rfl rfl (.inl rfl)
  | leaveCurrentRoom =>
    simp only [step, ChatState.leaveCurrentRoom]
    split
    · exact changes_after (changes_sendMessage (by trivial)) rfl rfl rfl (.inl rfl)
    · exact changes_appendMessage _ _ _
  | selectConversation type id => exact changes_selectConversation type id
  | sendCurrentMessage text => exact changes_sendCurrentMessage text
  | callMessage => exact changes_sendCallMessage
  | message object => exact changes_handleServerMessage (h object rfl)
  | failure text => exact changes_handleLoginOrMainError text
  | close =>
    simp only [step, ChatState.handleClose]
    split_ifs
    · exact changes_after (changes_appendMessage _ _ _) rfl rfl rfl (.inl rfl)
    · exact changes_other rfl rfl rfl (.inl rfl)

theorem changes_run {inputs : List Input} (h : ∀ before object after, inputs = before ++ .message object :: after →
    ∀ type id message, Tells (run clock s before).username object type id message → Told type id message) :
    Changes clock Told s (run clock s inputs) := by
  induction inputs generalizing s with
  | nil => exact .refl
  | cons input inputs ih =>
    have hstep : Changes clock Told s (step clock s input) :=
      changes_step fun object hinput => h [] object inputs (by rw [hinput, List.nil_append])
    refine hstep.trans (ih fun before object after hinputs => ?_)
    exact h (input :: before) object after (by rw [hinputs, List.cons_append])

/-! ### What every change keeps -/

/-- The message has a key of its own, or the server has told of it. -/
def Accounted (Told : ConversationType → JsString → Message → Prop) (sequence : ℕ) (type : ConversationType)
    (id : JsString) (stored : Stored) : Prop :=
  (∃ n ≤ sequence, stored.dedupeKey = localKey n) ∨
    ∃ message, Told type id message ∧ stored.dedupeKey = dbKey message.id ∧ stored.sender = message.sender ∧
      stored.content = message.content ∧ stored.kind = message.kind

/-- A conversation by itself: what counts as known is what is there, nothing is there twice, and no more is unread
than there is. -/
structure Conversation.Sound (conversation : Conversation) : Prop where
  known : ∀ key, key ∈ conversation.messageKeys ↔ key ∈ conversation.messages.map Stored.dedupeKey
  once : (conversation.messages.map Stored.dedupeKey).Nodup
  unread : conversation.unreadCount ≤ conversation.messages.length

structure Consistent (Told : ConversationType → JsString → Message → Prop) (s : ChatState) : Prop where
  sound : ∀ key, (s.conversations key).Sound
  accounted : ∀ type id, ∀ stored ∈ (s.conversations (conversationKey type id)).messages,
    Accounted Told s.localMessageSequence type id stored
  /-- a history is asked for once -/
  asked : ∀ type id, s.sent.count (historyRequest type id) ≤
    if (s.conversations (conversationKey type id)).historyRequested then 1 else 0
  /-- nothing is unread in the conversation that is shown -/
  shown : ∀ type id, s.current = some (type, id) →
    (s.conversations (conversationKey type id)).unreadCount = 0

theorem Accounted.mono {type : ConversationType} {id : JsString} {stored : Stored} {m n : ℕ}
    (h : Accounted Told m type id stored) (hle : m ≤ n) : Accounted Told n type id stored := by
  rcases h with ⟨k, hk, hkey⟩ | htold
  · exact .inl ⟨k, hk.trans hle, hkey⟩
  · exact .inr htold

/-- What `addMessageToConversation` hands to `storeMessage`: the state and the message. -/
structure Handed (s t : ChatState) (message : Message) (stored : Stored) : Prop where
  conversations : t.conversations = s.conversations
  sent : t.sent = s.sent
  current : t.current = s.current
  sequence : s.localMessageSequence ≤ t.localMessageSequence
  sender : stored.sender = message.sender
  content : stored.content = message.content
  kind : stored.kind = message.kind
  key : (message.id.truthy = true ∧ stored.dedupeKey = dbKey message.id) ∨
    stored.dedupeKey = localKey t.localMessageSequence

theorem exists_handed (s : ChatState) (type : ConversationType) (id : JsString) (message : Message)
    (markUnread : Bool) : ∃ (t : ChatState) (stored : Stored),
      s.addMessageToConversation clock type id message markUnread = t.storeMessage type id stored markUnread ∧
        Handed s t message stored := by
  obtain ⟨createdAt, s₁, hstamp, hkept⟩ : ∃ createdAt s₁, s.stampOf clock message.createdAt = (createdAt, s₁) ∧
      s₁.conversations = s.conversations ∧ s₁.sent = s.sent ∧ s₁.current = s.current ∧
        s₁.localMessageSequence = s.localMessageSequence := by
    rw [ChatState.stampOf]
    split_ifs
    · exact ⟨_, _, rfl, rfl, rfl, rfl, rfl⟩
    · exact ⟨_, _, rfl, rfl, rfl, rfl, rfl⟩
  obtain ⟨hconversations, hsent, hcurrent, hsequence⟩ := hkept
  by_cases htruthy : message.id.truthy = true
  · refine ⟨s₁, { message with createdAt, dedupeKey := dbKey message.id }, ?_, hconversations, hsent, hcurrent,
      hsequence.ge, rfl, rfl, rfl, .inl ⟨htruthy, rfl⟩⟩
    simp only [ChatState.addMessageToConversation, hstamp, ChatState.keyOf, if_pos htruthy]
  · refine ⟨{ s₁ with localMessageSequence := s₁.localMessageSequence + 1 },
      { message with createdAt, dedupeKey := localKey (s₁.localMessageSequence + 1) }, ?_, hconversations, hsent,
      hcurrent, ?_, rfl, rfl, rfl, .inr rfl⟩
    · simp only [ChatState.addMessageToConversation, hstamp, ChatState.keyOf, if_neg htruthy]
    · show s.localMessageSequence ≤ s₁.localMessageSequence + 1
      omega

theorem conversations_storeMessage {type : ConversationType} {id : JsString} {stored : Stored} {markUnread : Bool} :
    (s.storeMessage type id stored markUnread).conversations = s.conversations ∨
      stored.dedupeKey ∉ (s.conversations (conversationKey type id)).messageKeys ∧
      (s.storeMessage type id stored markUnread).conversations =
        Function.update s.conversations (conversationKey type id)
          ((s.conversations (conversationKey type id)).push stored (s.newUnread type id markUnread)) := by
  rw [ChatState.storeMessage]
  split_ifs with hknown
  · exact .inl rfl
  · exact .inr ⟨hknown, rfl⟩

theorem perm_push (conversation : Conversation) (stored : Stored) (unread : ℕ) :
    (conversation.push stored unread).messages.Perm (stored :: conversation.messages) :=
  (List.perm_insertionSort _ _).trans (List.perm_append_singleton stored conversation.messages)

theorem Conversation.Sound.push {conversation : Conversation} (h : conversation.Sound) {stored : Stored}
    (hnew : stored.dedupeKey ∉ conversation.messageKeys) {unread : ℕ} (hunread : unread ≤ 1) :
    (conversation.push stored unread).Sound := by
  have hperm := perm_push conversation stored unread
  have hkeys := hperm.map Stored.dedupeKey
  refine ⟨fun key => ?_, ?_, ?_⟩
  · rw [hkeys.mem_iff, List.map_cons, List.mem_cons, ← h.known]
    exact List.mem_cons
  · rw [hkeys.nodup_iff, List.map_cons, List.nodup_cons]
    exact ⟨fun hmem => hnew ((h.known _).mpr hmem), h.once⟩
  · rw [hperm.length_eq, List.length_cons]
    have hbound := h.unread
    show conversation.unreadCount + unread ≤ _
    omega

theorem historyRequest_inj {type type' : ConversationType} {id id' : JsString}
    (h : historyRequest type id = historyRequest type' id') : type = type' ∧ id = id' := by
  cases type <;> cases type' <;> simp_all [historyRequest]

/-- The request for a history is no other request. -/
theorem count_send {request : Request} (hplain : request.Plain) (sent : List Request) (type : ConversationType)
    (id : JsString) : (sent ++ [request]).count (historyRequest type id) = sent.count (historyRequest type id) := by
  have hne : request ≠ historyRequest type id := by
    rintro rfl
    cases type <;> exact hplain
  rw [List.count_append, List.count_singleton, beq_eq_false_iff_ne.mpr hne]
  rfl

/-- One conversation changes. -/
theorem Consistent.update (h : Consistent Told s) {type : ConversationType} {id : JsString}
    {conversation : Conversation} (hsound : conversation.Sound)
    (hconversations : s'.conversations = Function.update s.conversations (conversationKey type id) conversation)
    (hsequence : s.localMessageSequence ≤ s'.localMessageSequence)
    (haccounted : ∀ stored ∈ conversation.messages, Accounted Told s'.localMessageSequence type id stored)
    (hasked : s'.sent.count (historyRequest type id) ≤ if conversation.historyRequested then 1 else 0)
    (hothers : ∀ type' id', (type', id') ≠ (type, id) →
      s'.sent.count (historyRequest type' id') = s.sent.count (historyRequest type' id') ∧
        (s'.current = some (type', id') → s.current = some (type', id')))
    (hshown : s'.current = some (type, id) → conversation.unreadCount = 0) : Consistent Told s' := by
  have hself : s'.conversations (conversationKey type id) = conversation := by
    rw [hconversations, Function.update_self]
  have hne : ∀ {type' id'}, (type', id') ≠ (type, id) →
      s'.conversations (conversationKey type' id') = s.conversations (conversationKey type' id') := by
    intro type' id' hpair
    rw [hconversations, Function.update_of_ne]
    intro hkey
    obtain ⟨rfl, rfl⟩ := conversationKey_inj hkey
    exact hpair rfl
  refine ⟨fun key => ?_, fun type' id' stored hstored => ?_, fun type' id' => ?_, fun type' id' hcurrent => ?_⟩
  · by_cases hkey : key = conversationKey type id
    · rw [hkey, hself]
      exact hsound
    · rw [hconversations, Function.update_of_ne hkey]
      exact h.sound key
  · by_cases hpair : (type', id') = (type, id)
    · obtain ⟨rfl, rfl⟩ := Prod.mk.inj hpair
      rw [hself] at hstored
      exact haccounted stored hstored
    · rw [hne hpair] at hstored
      exact (h.accounted type' id' stored hstored).mono hsequence
  · by_cases hpair : (type', id') = (type, id)
    · obtain ⟨rfl, rfl⟩ := Prod.mk.inj hpair
      rw [hself]
      exact hasked
    · rw [hne hpair, (hothers type' id' hpair).1]
      exact h.asked type' id'
  · by_cases hpair : (type', id') = (type, id)
    · obtain ⟨rfl, rfl⟩ := Prod.mk.inj hpair
      rw [hself]
      exact hshown hcurrent
    · rw [hne hpair]
      exact h.shown type' id' ((hothers type' id' hpair).2 hcurrent)

/-- What else there is does not matter. -/
theorem Consistent.other (h : Consistent Told s) (hconversations : s'.conversations = s.conversations)
    (hsent : s'.sent = s.sent) (hsequence : s.localMessageSequence ≤ s'.localMessageSequence)
    (hcurrent : s'.current = s.current ∨ s'.current = none) : Consistent Told s' := by
  refine ⟨?_, ?_, ?_, ?_⟩
  · rw [hconversations]
    exact h.sound
  · rw [hconversations]
    intro type id stored hstored
    exact (h.accounted type id stored hstored).mono hsequence
  · rw [hconversations, hsent]
    exact h.asked
  · intro type id hshown
    rw [hconversations]
    rcases hcurrent with hsame | hnone
    · exact h.shown type id (hsame.symm.trans hshown)
    · exact absurd (hnone.symm.trans hshown) (by simp)

theorem Consistent.storeMessage (h : Consistent Told s) {type : ConversationType} {id : JsString} {stored : Stored}
    (haccounted : Accounted Told s.localMessageSequence type id stored) (markUnread : Bool) :
    Consistent Told (s.storeMessage type id stored markUnread) := by
  rw [ChatState.storeMessage]
  split_ifs with hknown
  · exact h
  · have hunread : s.newUnread type id markUnread ≤ 1 := by
      rw [ChatState.newUnread]
      split_ifs <;> omega
    refine h.update ((h.sound (conversationKey type id)).push hknown hunread) rfl le_rfl ?_ (h.asked type id) ?_ ?_
    · intro stored' hstored'
      rcases List.mem_cons.mp ((perm_push _ _ _).mem_iff.mp hstored') with rfl | hold
      · exact haccounted
      · exact h.accounted type id stored' hold
    · exact fun type' id' _ => ⟨rfl, fun hcurrent => hcurrent⟩
    · intro hcurrent
      have hcurrent : s.current = some (type, id) := hcurrent
      have hread : s.newUnread type id markUnread = 0 := by
        simp [ChatState.newUnread, ChatState.isActiveConversation, hcurrent]
      show (s.conversations (conversationKey type id)).unreadCount + s.newUnread type id markUnread = 0
      rw [hread, h.shown type id hcurrent]

/-- **Every change keeps it.** -/
theorem Change.consistent (hchange : Change clock Told s s') (h : Consistent Told s) : Consistent Told s' := by
  cases hchange with
  | other hconversations hsent hsequence hcurrent => exact h.other hconversations hsent hsequence.ge hcurrent
  | @store type id message markUnread htold =>
    obtain ⟨t, stored, heq, hhanded⟩ := @exists_handed clock s type id message markUnread
    rw [heq]
    have ht : Consistent Told t := h.other hhanded.conversations hhanded.sent hhanded.sequence (.inl hhanded.current)
    refine ht.storeMessage ?_ markUnread
    rcases hhanded.key with ⟨htruthy, hkey⟩ | hkey
    · exact .inr ⟨message, htold htruthy, hkey, hhanded.sender, hhanded.content, hhanded.kind⟩
    · exact .inl ⟨_, le_rfl, hkey⟩
  | @send request hplain =>
    refine ⟨h.sound, h.accounted, fun type id => ?_, h.shown⟩
    rw [count_send hplain]
    exact h.asked type id
  | @ask type id requests hfirst hrequests =>
    have hold := h.sound (conversationKey type id)
    have hsound : Conversation.Sound
        { s.conversations (conversationKey type id) with historyRequested := true } :=
      ⟨hold.known, hold.once, hold.unread⟩
    refine h.update hsound rfl le_rfl (h.accounted type id) ?_ ?_ (h.shown type id)
    · have hnone := h.asked type id
      rw [hfirst] at hnone
      rw [List.count_append, if_pos rfl]
      rcases hrequests with rfl | rfl
      · rw [List.count_singleton_self]
        simp at hnone
        omega
      · simp at hnone ⊢
        omega
    · intro type' id' hpair
      refine ⟨?_, fun hcurrent => hcurrent⟩
      rw [List.count_append]
      rcases hrequests with rfl | rfl
      · have hne : historyRequest type id ≠ historyRequest type' id' := by
          intro heq
          obtain ⟨rfl, rfl⟩ := historyRequest_inj heq
          exact hpair rfl
        rw [List.count_singleton, beq_eq_false_iff_ne.mpr hne]
        rfl
      · rfl
  | select type id =>
    have hold := h.sound (conversationKey type id)
    have hsound : Conversation.Sound { s.conversations (conversationKey type id) with unreadCount := 0 } :=
      ⟨hold.known, hold.once, Nat.zero_le _⟩
    refine h.update hsound rfl le_rfl (h.accounted type id) (h.asked type id) ?_ fun _ => rfl
    intro type' id' hpair
    refine ⟨rfl, fun hcurrent => ?_⟩
    exact absurd (Option.some.inj hcurrent).symm hpair

theorem Changes.consistent (hchanges : Changes clock Told s s') (h : Consistent Told s) : Consistent Told s' := by
  induction hchanges with
  | refl => exact h
  | tail _ hchange ih => exact hchange.consistent ih

/-- Nothing that is shown disappears. -/
theorem Change.kept (hchange : Change clock Told s s') (key : JsString) :
    ∀ stored ∈ (s.conversations key).messages, stored ∈ (s'.conversations key).messages := by
  intro stored hstored
  have hupdate : ∀ {key' : JsString} {conversation : Conversation},
      (∀ stored ∈ (s.conversations key').messages, stored ∈ conversation.messages) →
      stored ∈ (Function.update s.conversations key' conversation key).messages := by
    intro key' conversation hmessages
    by_cases hkey : key = key'
    · subst hkey
      rw [Function.update_self]
      exact hmessages stored hstored
    · rw [Function.update_of_ne hkey]
      exact hstored
  cases hchange with
  | other hconversations hsent hsequence hcurrent =>
    rw [hconversations]
    exact hstored
  | @store type id message markUnread htold =>
    obtain ⟨t, stored', heq, hhanded⟩ := @exists_handed clock s type id message markUnread
    rw [heq]
    rcases @conversations_storeMessage t type id stored' markUnread with hsame | ⟨-, hpush⟩
    · rw [hsame, hhanded.conversations]
      exact hstored
    · rw [hpush, hhanded.conversations]
      exact hupdate fun x hx => (perm_push _ _ _).mem_iff.mpr (List.mem_cons_of_mem _ hx)
  | send hplain => exact hstored
  | ask hfirst hrequests => exact hupdate fun x hx => hx
  | select type id => exact hupdate fun x hx => hx

theorem Changes.kept (hchanges : Changes clock Told s s') (key : JsString) :
    ∀ stored ∈ (s.conversations key).messages, stored ∈ (s'.conversations key).messages := by
  induction hchanges with
  | refl => exact fun stored hstored => hstored
  | tail _ hchange ih => exact fun stored hstored => hchange.kept key stored (ih stored hstored)

end

end Web

end ChatService
