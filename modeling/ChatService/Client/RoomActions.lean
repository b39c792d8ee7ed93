import ChatService.Client.ChatState
import ChatService.Network.RoomReplies

/-!
# The room actions of the web client (`web-client/app.js`)

The web client as a `RoomClient`.  `pendingRoomAction` is one variable for all actions: the next reply that
reports a join, and the next one that reports a leave, will be taken to be about its room.  `lawful_client` says
what the handlers do to it, and what they send about rooms.
-/

namespace ChatService

namespace Web

open Gateway (JsString isJsSpace)

/-- What is asked of the server's rooms. -/
def Request.room? : Request → Option RoomRequest
  | .createRoom room => some ⟨.create, room⟩
  | .join room => some ⟨.join, room⟩
  | .leave room => some ⟨.leave, room⟩
  | _ => none

/-- `{ type, message }`. -/
def textMessage (type : String) (text : JsString) : JsObject :=
  [("type".toList, .string type.toList), ("message".toList, .string text)]

/-- The success that a message reports. -/
def reports (message : JsObject) : Option RoomAction :=
  RoomAction.reported (textOf message "type") (textOf message "message")

namespace ChatState

/-- The room of `pendingRoomAction`. -/
def pendingRoom (s : ChatState) : Option JsString := s.pendingRoomAction.map Prod.fst

/-- The room that the next reply will be taken to be about. -/
def pending (s : ChatState) : RoomAction → Option JsString
  | .create => none
  | _ => s.pendingRoom

/-- What `handleOk` announces. -/
def announces (s : ChatState) (message : JsObject) : Option RoomRequest :=
  RoomRequest.announced (reports message) s.pending

/-- The room that an action names. -/
def namedRoom (s : ChatState) : Input → Option JsString
  | .submitRoomDialog room =>
    let room := Words.trim isJsSpace room
    if room = [] then none else some room
  | .leaveCurrentRoom =>
    match s.current with
    | some (.ROOM, room) => some room
    | _ => none
  | _ => none

end ChatState

/-- The client, with the server's messages apart from what else happens to it. -/
def client (clock : ℕ → ℤ) : RoomClient ChatState Input JsObject where
  act s := fun
    | .message _ => s
    | input => step clock s input
  read s message := s.handleServerMessage clock message
  sent s := s.sent.map Request.room?
  pending := ChatState.pending
  actSets s input := (s.namedRoom input).toList.flatMap fun room => [⟨.join, room⟩, ⟨.leave, room⟩]
  readSets _ _ := []
  succeeded action := textMessage "ok" action.success.toList
  failed error := textMessage "error" error
  reports := reports
  announces := ChatState.announces

namespace ChatState

variable {clock : ℕ → ℤ} {s s' s'' : ChatState} {type : ConversationType} {id : JsString}

/-- Nothing is sent about rooms, and `pendingRoomAction` stays. -/
abbrev Calm (clock : ℕ → ℤ) : ChatState → ChatState → Prop := (client clock).Calm

theorem calm_of_eq (hpending : s'.pendingRoomAction = s.pendingRoomAction) (hsent : s'.sent = s.sent) :
    Calm clock s s' := by
  have hroom : (client clock).pending s' = (client clock).pending s := by
    funext action
    cases action with
    | create => rfl
    | join => exact congrArg (Option.map Prod.fst) hpending
    | leave => exact congrArg (Option.map Prod.fst) hpending
  refine ⟨fun action room hset => ?_, 0, ?_⟩
  · rw [hroom] at hset
    exact hset
  · show s'.sent.map Request.room? = s.sent.map Request.room? ++ []
    rw [hsent, List.append_nil]

/-- `pendingRoomAction` is dropped. -/
theorem calm_of_none (hpending : s'.pendingRoomAction = none) (hsent : s'.sent = s.sent) : Calm clock s s' := by
  have hnone : s'.pendingRoom = none := congrArg (Option.map Prod.fst) hpending
  refine ⟨fun action room hset => ?_, 0, ?_⟩
  · cases action with
    | create => exact hset
    | join => exact absurd (hnone.symm.trans hset) nofun
    | leave => exact absurd (hnone.symm.trans hset) nofun
  · show s'.sent.map Request.room? = s.sent.map Request.room? ++ []
    rw [hsent, List.append_nil]

theorem calm_storeMessage (stored : Stored) (markUnread : Bool) :
    Calm clock s (s.storeMessage type id stored markUnread) := by
  rw [storeMessage]
  split_ifs
  · exact .refl s
  · exact calm_of_eq rfl rfl

theorem calm_addMessageToConversation (message : Message) (markUnread : Bool) :
    Calm clock s (s.addMessageToConversation clock type id message markUnread) := by
  have hstamp : ∀ createdAt, Calm clock s (s.stampOf clock createdAt).2 := by
    intro createdAt
    rw [stampOf]
    split_ifs
    · exact .refl s
    · exact calm_of_eq rfl rfl
  have hkey : ∀ (s : ChatState) id, Calm clock s (s.keyOf id).2 := by
    intro s id
    rw [keyOf]
    split_ifs
    · exact .refl s
    · exact calm_of_eq rfl rfl
  exact ((hstamp _).trans (hkey _ _)).trans (calm_storeMessage ..)

theorem calm_appendMessage (sender text : JsString) (kind : MessageKind) :
    Calm clock s (s.appendMessage clock sender text kind) := by
  rw [appendMessage]
  split
  · exact .refl s
  · exact calm_addMessageToConversation ..

theorem calm_sendMessage {request : Request} (hroom : request.room? = none) :
    Calm clock s (s.sendMessage clock request).2 := by
  rw [sendMessage]
  split_ifs
  · refine ⟨fun _ _ h => h, 1, ?_⟩
    show (s.sent ++ [request]).map Request.room? = s.sent.map Request.room? ++ [none]
    rw [List.map_append, List.map_singleton, hroom]
  · exact calm_appendMessage ..

theorem calm_sendCallMessage : Calm clock s (s.sendCallMessage clock) := by
  rw [sendCallMessage]
  split_ifs
  · exact .refl s
  · exact calm_appendMessage ..

theorem calm_setConversation (key : JsString) (conversation : Conversation) :
    Calm clock s (s.setConversation key conversation) :=
  calm_of_eq rfl rfl

theorem calm_requestHistoryIfNeeded : Calm clock s (s.requestHistoryIfNeeded clock type id) := by
  rw [requestHistoryIfNeeded]
  split_ifs
  · exact .refl s
  · have hset : Calm clock s (s.setConversation (conversationKey type id)
        { s.conversations (conversationKey type id) with historyRequested := true }) := calm_setConversation ..
    cases type with
    | PRIVATE => exact hset.trans (calm_sendMessage rfl)
    | ROOM => exact hset.trans (calm_sendMessage rfl)

theorem calm_selectConversation : Calm clock s (s.selectConversation clock type id) := by
  rw [selectConversation]
  split_ifs
  · exact calm_of_eq rfl rfl
  · refine RoomClient.Calm.trans ?_ calm_requestHistoryIfNeeded
    cases type with
    | PRIVATE => exact calm_of_eq rfl rfl
    | ROOM => exact calm_of_eq rfl rfl

theorem calm_sendCurrentMessage (text : JsString) : Calm clock s (s.sendCurrentMessage clock text) := by
  have hsend : ∀ (type : ConversationType) (id sender : JsString) (request : Request), request.room? = none →
      Calm clock s (if (s.sendMessage clock request).1 then
        { (s.sendMessage clock request).2 with
          readings := (s.sendMessage clock request).2.readings + 1 }.addMessageToConversation clock type id
            { sender, content := Words.trim isJsSpace text
              createdAt := .number (clock (s.sendMessage clock request).2.readings), kind := .MINE } false
        else (s.sendMessage clock request).2) := by
    intro type id sender request hroom
    have hsent : Calm clock s (s.sendMessage clock request).2 := calm_sendMessage hroom
    have hread : Calm clock (s.sendMessage clock request).2
        { (s.sendMessage clock request).2 with readings := (s.sendMessage clock request).2.readings + 1 } :=
      calm_of_eq rfl rfl
    split_ifs
    · exact (hsent.trans hread).trans (calm_addMessageToConversation ..)
    · exact hsent
  rw [sendCurrentMessage]
  cases hcurrent : s.current with
  | none => exact .refl s
  | some current =>
    obtain ⟨type, id⟩ := current
    by_cases hempty : Words.trim isJsSpace text = []
    · dsimp only
      rw [if_pos hempty]
      exact .refl s
    · dsimp only
      rw [if_neg hempty]
      cases type with
      | PRIVATE => exact hsend _ _ _ _ rfl
      | ROOM => exact hsend _ _ _ _ rfl

theorem calm_handleOtherOk (text : JsString) : Calm clock s (s.handleOtherOk clock text) := by
  rw [handleOtherOk]
  split_ifs
  · exact .refl s
  · exact calm_appendMessage ..

theorem calm_handleLoginOrMainError (message : JsString) : Calm clock s (s.handleLoginOrMainError clock message) := by
  rw [handleLoginOrMainError]
  split_ifs
  · exact calm_appendMessage ..
  · exact .refl s

theorem calm_handlePrivateMessage (message : JsObject) : Calm clock s (s.handlePrivateMessage clock message) := by
  rw [handlePrivateMessage]
  split_ifs
  · exact .refl s
  · have husers : Calm clock s { s with users := addToSet s.users (textOf message "from") } := calm_of_eq rfl rfl
    exact husers.trans (calm_addMessageToConversation ..)

theorem calm_handleRoomMessage (message : JsObject) : Calm clock s (s.handleRoomMessage clock message) := by
  rw [handleRoomMessage]
  split_ifs
  · exact .refl s
  · have hrooms : Calm clock s { s with rooms := addToSet s.rooms (textOf message "room") } := calm_of_eq rfl rfl
    exact hrooms.trans (calm_addMessageToConversation ..)

theorem calm_mergeItems (items : List JsObject) :
    Calm clock s (items.foldl (fun s item => s.mergeItem clock type id item) s) := by
  induction items generalizing s with
  | nil => exact .refl s
  | cons item items ih =>
    refine RoomClient.Calm.trans ?_ ih
    show Calm clock s (s.mergeItem clock type id item)
    rw [mergeItem]
    split_ifs
    · exact .refl s
    · exact calm_addMessageToConversation ..

theorem calm_handlePrivateHistory (message : JsObject) : Calm clock s (s.handlePrivateHistory clock message) := by
  rw [handlePrivateHistory]
  split
  · split_ifs
    · exact calm_appendMessage ..
    · exact calm_mergeItems _
  · exact calm_appendMessage ..

theorem calm_handleRoomHistory (message : JsObject) : Calm clock s (s.handleRoomHistory clock message) := by
  rw [handleRoomHistory]
  split
  · split_ifs
    · exact calm_appendMessage ..
    · have hrooms : Calm clock s { s with rooms := addToSet s.rooms (textOf message "room") } := calm_of_eq rfl rfl
      exact hrooms.trans (calm_mergeItems _)
  · exact calm_appendMessage ..

theorem calm_handleClose : Calm clock s (s.handleClose clock) := by
  have hclosed : Calm clock s { s with socketOpen := false, loggedIn := false } := calm_of_eq rfl rfl
  rw [handleClose]
  split_ifs
  · exact hclosed.trans (calm_appendMessage ..)
  · exact hclosed

/-! ### Handlers -/

/-- An action is remembered, and asked of the server. -/
theorem follows_ask (asked : RoomRequest) {request : Request} {sets : List RoomRequest}
    (hroom : request.room? = some asked) (hset : (client clock).Follows s s' sets)
    (hpending : s'.pendingRoom = some asked.room) :
    (client clock).Follows s (s'.sendMessage clock request).2 sets := by
  rw [sendMessage]
  split_ifs
  · refine hset.ask asked rfl ?_ ?_
    · show (s'.sent ++ [request]).map Request.room? = s'.sent.map Request.room? ++ [some asked]
      rw [List.map_append, List.map_singleton, hroom]
    · intro room hasked
      cases haction : asked.action with
      | create =>
        rw [haction] at hasked
        exact absurd hasked nofun
      | join =>
        rw [haction] at hasked
        exact Option.some.inj (hpending.symm.trans hasked)
      | leave =>
        rw [haction] at hasked
        exact Option.some.inj (hpending.symm.trans hasked)
  · exact hset.trans_calm (calm_appendMessage ..)

theorem actSets_of_named {input : Input} {room : JsString} (h : s.namedRoom input = some room) :
    (client clock).actSets s input = [⟨.join, room⟩, ⟨.leave, room⟩] := by
  show (s.namedRoom input).toList.flatMap _ = _
  rw [h]
  rfl

/-- The room that an action names is the pending one. -/
theorem follows_named (asked : RoomRequest) {input : Input} {request : Request}
    (hroom : request.room? = some asked) (hsent : s'.sent = s.sent)
    (hpending : s'.pendingRoom = some asked.room) (hnamed : s.namedRoom input = some asked.room) :
    (client clock).Follows s (s'.sendMessage clock request).2 ((client clock).actSets s input) := by
  refine follows_ask asked hroom (RoomClient.follows_of_sent_eq ?_ ?_) hpending
  · intro action room hset
    right
    rw [actSets_of_named hnamed]
    cases action with
    | create => exact absurd hset nofun
    | join =>
      obtain rfl : asked.room = room := Option.some.inj (hpending.symm.trans hset)
      exact List.mem_cons_self
    | leave =>
      obtain rfl : asked.room = room := Option.some.inj (hpending.symm.trans hset)
      exact List.mem_cons_of_mem _ List.mem_cons_self
  · show s'.sent.map _ = s.sent.map _
    rw [hsent]

/-- **A user's action** remembers the room that it names. -/
theorem follows_act (s : ChatState) (input : Input) :
    (client clock).Follows s ((client clock).act s input) ((client clock).actSets s input) := by
  cases input with
  | refreshUsers => exact RoomClient.Calm.follows (calm_sendMessage rfl)
  | openRoomDialog mode => exact RoomClient.Calm.follows (calm_of_eq rfl rfl)
  | closeRoomDialog => exact RoomClient.Calm.follows (calm_of_eq rfl rfl)
  | submitRoomDialog text =>
    show (client clock).Follows s (s.submitRoomDialog clock text) _
    by_cases hempty : Words.trim isJsSpace text = []
    · have hsame : s.submitRoomDialog clock text = s := if_pos hempty
      rw [hsame]
      exact RoomClient.Calm.follows (.refl s)
    · have hnamed : s.namedRoom (.submitRoomDialog text) = some (Words.trim isJsSpace text) := if_neg hempty
      rw [submitRoomDialog, if_neg hempty]
      by_cases hcreate : s.roomDialogMode = some .create
      · simp only [hcreate, if_true]
        exact follows_named ⟨.create, Words.trim isJsSpace text⟩ rfl rfl rfl hnamed
      · simp only [hcreate, if_false]
        exact follows_named ⟨.join, Words.trim isJsSpace text⟩ rfl rfl rfl hnamed
  | leaveCurrentRoom =>
    show (client clock).Follows s (s.leaveCurrentRoom clock) _
    rw [leaveCurrentRoom]
    split
    · next room hcurrent =>
      have hnamed : s.namedRoom .leaveCurrentRoom = some room := by rw [namedRoom, hcurrent]
      exact follows_named ⟨.leave, room⟩ rfl rfl rfl hnamed
    · exact RoomClient.Calm.follows (calm_appendMessage ..)
  | selectConversation type id => exact RoomClient.Calm.follows calm_selectConversation
  | sendCurrentMessage text => exact RoomClient.Calm.follows (calm_sendCurrentMessage text)
  | callMessage => exact RoomClient.Calm.follows calm_sendCallMessage
  | message object => exact RoomClient.Calm.follows (.refl s)
  | failure text => exact RoomClient.Calm.follows (calm_handleLoginOrMainError text)
  | close => exact RoomClient.Calm.follows calm_handleClose

theorem follows_handleOk (s : ChatState) (message : JsObject) :
    (client clock).Follows s (s.handleOk clock message) [] := by
  have hlogin : ∀ username, Calm clock s (s.showMainWindow clock username) := by
    intro username
    have hlogged : Calm clock s { s with username, loggedIn := true } := calm_of_eq rfl rfl
    exact hlogged.trans (calm_sendMessage rfl)
  have hlogout : Calm clock s ({ s with loggedIn := false, username := [] }.appendSystemMessage clock
      "Logged out.".toList) := by
    have hlogged : Calm clock s { s with loggedIn := false, username := [] } := calm_of_eq rfl rfl
    exact hlogged.trans (calm_appendMessage ..)
  rw [handleOk]
  by_cases hconnected : textOf message "message" = "connected".toList ∧ s.loggedIn = false
  · rw [if_pos hconnected]
    exact RoomClient.Calm.follows (.refl s)
  rw [if_neg hconnected]
  by_cases hlogged : "logged in as ".toList <+: textOf message "message"
  · rw [if_pos hlogged]
    exact RoomClient.Calm.follows (hlogin _)
  rw [if_neg hlogged]
  by_cases hout : textOf message "message" = "logged out".toList
  · rw [if_pos hout]
    exact RoomClient.Calm.follows hlogout
  rw [if_neg hout]
  split
  · next room mode hpending =>
    split_ifs
    · -- the automatic join is about the pending room
      have hroom : s.pendingRoom = some room := congrArg (Option.map Prod.fst) hpending
      refine follows_ask ⟨.join, room⟩ rfl (RoomClient.follows_of_sent_eq ?_ rfl) rfl
      intro action room' hset
      left
      cases action with
      | create => exact hset
      | join => exact hroom.trans hset
      | leave => exact hroom.trans hset
    · have hdropped : Calm clock s { s with rooms := addToSet s.rooms room, pendingRoomAction := none } :=
        calm_of_none rfl rfl
      exact RoomClient.Calm.follows ((hdropped.trans calm_selectConversation).trans (calm_appendMessage ..))
    · exact RoomClient.Calm.follows (calm_of_none rfl rfl)
    · exact RoomClient.Calm.follows (calm_of_none rfl rfl)
    · exact RoomClient.Calm.follows (calm_handleOtherOk _)
  · exact RoomClient.Calm.follows (calm_handleOtherOk _)

/-- **A message of the server** sets no new room. -/
theorem follows_read (s : ChatState) (message : JsObject) :
    (client clock).Follows s ((client clock).read s message) [] := by
  show (client clock).Follows s (s.handleServerMessage clock message) []
  have hdropped : Calm clock s { s with pendingRoomAction := none } := calm_of_none rfl rfl
  rw [handleServerMessage]
  dsimp only
  split_ifs
  · exact RoomClient.Calm.follows (.refl s)
  · exact follows_handleOk s message
  · exact RoomClient.Calm.follows (hdropped.trans (calm_handleLoginOrMainError _))
  · exact RoomClient.Calm.follows (hdropped.trans (calm_handleLoginOrMainError _))
  · exact RoomClient.Calm.follows (calm_of_eq rfl rfl)
  · exact RoomClient.Calm.follows (calm_handlePrivateMessage _)
  · exact RoomClient.Calm.follows (calm_handleRoomMessage _)
  · exact RoomClient.Calm.follows (calm_handlePrivateHistory _)
  · exact RoomClient.Calm.follows (calm_handleRoomHistory _)
  · exact RoomClient.Calm.follows (calm_appendMessage ..)
  · exact RoomClient.Calm.follows (calm_appendMessage ..)

theorem lawful_client (clock : ℕ → ℤ) : (client clock).Lawful where
  act := follows_act
  read := follows_read
  succeeded _ := RoomAction.reported_eq_some.mpr ⟨rfl, rfl⟩
  failed := RoomAction.reported_error
  announces _ _ _ := RoomRequest.announced_eq_some.mp

/-! ### What is announced -/

/-- An announcement is the entry in the conversation, or the room that is taken off the list. -/
theorem handleServerMessage_announces {message : JsObject} {request : RoomRequest}
    (h : s.announces message = some request) : s.handleServerMessage clock message =
      if request.action = .join then
        ({ s with rooms := addToSet s.rooms request.room, pendingRoomAction := none }.selectConversation clock .ROOM
          request.room).appendSystemMessage clock ("Joined room: ".toList ++ request.room)
      else
        { s with
          rooms := s.rooms.filter (· ≠ request.room)
          pendingRoomAction := none
          current := if s.isActiveConversation .ROOM request.room then none else s.current } := by
  obtain ⟨hreports, hpending⟩ := RoomRequest.announced_eq_some.mp h
  obtain ⟨htype, htext⟩ := RoomAction.reported_eq_some.mp hreports
  have haction : request.action ≠ .create := by
    intro hcreate
    rw [hcreate] at hpending
    exact absurd hpending nofun
  have hroom : s.pendingRoom = some request.room := by
    cases hrequest : request.action with
    | create => exact absurd hrequest haction
    | join => simpa [pending, hrequest] using hpending
    | leave => simpa [pending, hrequest] using hpending
  obtain ⟨⟨room, mode⟩, hmode, hsame⟩ := Option.map_eq_some_iff.mp hroom
  obtain rfl : room = request.room := hsame
  rw [handleServerMessage]
  rw [htype, if_neg (by decide), if_pos rfl, handleOk, htext, hmode]
  cases hrequest : request.action with
  | create => exact absurd hrequest haction
  | join => rfl
  | leave => rfl

end ChatState

end Web

end ChatService
