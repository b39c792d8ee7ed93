import ChatService.Network.RoomReplies
import ChatService.QtClient.MainWindow

/-!
# The room actions of the Qt client (`qt-client/src/MainWindow.cpp`)

The Qt client as a `RoomClient`.  There is one variable for each kind of request: the next `joined room` will be
taken to be about `pendingJoinRoom_`, the next `left room` about `pendingLeaveRoom_`; a `room created` sets the
former to `pendingCreateRoom_` and joins this room.  An error clears them all.
-/

namespace ChatService

namespace Qt

/-- What is asked of the server's rooms. -/
def Request.room? : Request → Option RoomRequest
  | .createRoom room => some ⟨.create, room⟩
  | .joinRoom room => some ⟨.join, room⟩
  | .leaveRoom room => some ⟨.leave, room⟩
  | _ => none

/-- `{ type, message }`. -/
def textMessage (type : String) (text : QString) : QJsonObject :=
  [("message".toList, .string text), ("type".toList, .string type.toList)]

/-- The success that a message reports. -/
def reports (object : QJsonObject) : Option RoomAction :=
  RoomAction.reported (stringValue object "type") (stringValue object "message")

/-- A room that is remembered. -/
def roomOf (room : QString) : Option QString := if room = [] then none else some room

namespace MainWindow

/-- The room that the next reply will be taken to be about. -/
def pendingRoom (w : MainWindow) : RoomAction → Option QString
  | .create => none
  | .join => roomOf w.pendingJoinRoom
  | .leave => roomOf w.pendingLeaveRoom

/-- What `showInfo` announces. -/
def announces (w : MainWindow) (object : QJsonObject) : Option RoomRequest :=
  RoomRequest.announced (reports object) w.pendingRoom

/-- Where an action of the user sets a pending room. -/
def actSets : Input → List RoomRequest
  | .joinRoom room => [⟨.join, trimmed room⟩]
  | .leaveRoom room => [⟨.leave, room⟩]
  | _ => []

/-- Where a message makes `showInfo` set a pending room: the room that was created is joined. -/
def readSets (w : MainWindow) (object : QJsonObject) : List RoomRequest :=
  if reports object = some .create then (roomOf w.pendingCreateRoom).toList.map fun room => ⟨.join, room⟩ else []

end MainWindow

/-- The client, with the server's messages apart from what else happens to it. -/
def client (clock : ℕ → ℤ) : RoomClient MainWindow Input QJsonObject where
  act w := fun
    | .object _ => w
    | input => step clock w input
  read w object := w.handleObject clock object
  sent w := w.requests.map Request.room?
  pending := MainWindow.pendingRoom
  actSets _ := MainWindow.actSets
  readSets := MainWindow.readSets
  succeeded action := textMessage "ok" action.success.toList
  failed error := textMessage "error" error
  reports := reports
  announces := MainWindow.announces

namespace MainWindow

variable {clock : ℕ → ℤ} {w w' : MainWindow} {type : ConversationType} {id : QString}

/-- Nothing is sent about rooms, and the pending rooms stay or are cleared. -/
abbrev Calm (clock : ℕ → ℤ) : MainWindow → MainWindow → Prop := (client clock).Calm

theorem roomOf_eq_some {room room' : QString} (h : roomOf room = some room') : room = room' := by
  rw [roomOf] at h
  split_ifs at h
  exact Option.some.inj h

theorem calm_of_kept (hjoin : w'.pendingJoinRoom = w.pendingJoinRoom ∨ w'.pendingJoinRoom = [])
    (hleave : w'.pendingLeaveRoom = w.pendingLeaveRoom ∨ w'.pendingLeaveRoom = [])
    (hrequests : w'.requests = w.requests) : Calm clock w w' := by
  refine ⟨fun action room hset => ?_, 0, ?_⟩
  · cases action with
    | create => exact hset
    | join =>
      rcases hjoin with hkept | hcleared
      · exact (congrArg roomOf hkept).symm.trans hset
      · exact absurd ((congrArg roomOf hcleared).symm.trans hset) nofun
    | leave =>
      rcases hleave with hkept | hcleared
      · exact (congrArg roomOf hkept).symm.trans hset
      · exact absurd ((congrArg roomOf hcleared).symm.trans hset) nofun
  · show w'.requests.map Request.room? = w.requests.map Request.room? ++ []
    rw [hrequests, List.append_nil]

theorem calm_of_eq (hjoin : w'.pendingJoinRoom = w.pendingJoinRoom) (hleave : w'.pendingLeaveRoom = w.pendingLeaveRoom)
    (hrequests : w'.requests = w.requests) : Calm clock w w' :=
  calm_of_kept (.inl hjoin) (.inl hleave) hrequests

theorem calm_setConversation (key : QString) (conversation : ConversationState) :
    Calm clock w (w.setConversation key conversation) := calm_of_eq rfl rfl rfl

theorem calm_ensureConversation (clock : ℕ → ℤ) (w : MainWindow) (type : ConversationType) (id : QString) :
    Calm clock w (w.ensureConversation type id) := calm_of_eq rfl rfl rfl

theorem calm_currentSeconds : Calm clock w (w.currentSeconds clock).2 := calm_of_eq rfl rfl rfl

theorem calm_nextLocalMessageKey : Calm clock w w.nextLocalMessageKey.2 := calm_of_eq rfl rfl rfl

theorem calm_addMessageToConversation (message : ChatMessage) (markUnread : Bool) :
    Calm clock w (w.addMessageToConversation clock type id message markUnread) := by
  have hstamp : ∀ (w : MainWindow) stored, Calm clock w (w.stampMessage clock stored).2 := by
    intro w stored
    rw [stampMessage]
    split_ifs
    · exact calm_currentSeconds
    · exact .refl w
  have hkey : ∀ (w : MainWindow) stored, Calm clock w (w.keyMessage stored).2 := by
    intro w stored
    rw [keyMessage]
    split_ifs
    · exact .refl w
    · exact calm_nextLocalMessageKey
    · exact .refl w
  have hstore : ∀ (w : MainWindow) stored, Calm clock w (w.storeMessage type id stored markUnread) := by
    intro w stored
    rw [storeMessage]
    split_ifs
    · exact .refl w
    · exact calm_of_eq rfl rfl rfl
  exact (((calm_ensureConversation clock w type id).trans (hstamp _ _)).trans (hkey _ _)).trans (hstore _ _)

theorem calm_appendMessage (text : QString) (kind : Kind) : Calm clock w (w.appendMessage clock text kind) := by
  have hmake : Calm clock w (w.makeSystemMessage clock text kind).2 :=
    calm_currentSeconds.trans calm_nextLocalMessageKey
  rw [appendMessage]
  split_ifs
  · exact .refl w
  · exact hmake.trans (calm_addMessageToConversation ..)

theorem calm_showError (message : QString) : Calm clock w (w.showError clock message) := by
  have happend : Calm clock w (w.appendErrorMessage clock message) := calm_appendMessage ..
  exact happend.trans (calm_of_kept (.inr rfl) (.inr rfl) rfl)

theorem calm_sendLine {request : Request} (hroom : request.room? = none) : Calm clock w (w.sendLine clock request) := by
  rw [sendLine]
  split_ifs
  · refine ⟨fun _ _ h => h, 1, ?_⟩
    show (w.requests ++ [request]).map Request.room? = w.requests.map Request.room? ++ [none]
    rw [List.map_append, List.map_singleton, hroom]
  · exact calm_showError _

theorem calm_addUserIfMissing (username : QString) : Calm clock w (w.addUserIfMissing username) := by
  rw [addUserIfMissing]
  split_ifs
  · exact .refl w
  · exact calm_of_eq rfl rfl rfl

theorem calm_addRoomIfMissing (room : QString) : Calm clock w (w.addRoomIfMissing room) := by
  rw [addRoomIfMissing]
  split_ifs
  · exact .refl w
  · exact calm_of_eq rfl rfl rfl

theorem calm_requestHistoryIfNeeded (key : QString) : Calm clock w (w.requestHistoryIfNeeded clock key) := by
  rw [requestHistoryIfNeeded]
  dsimp only
  by_cases hrequested : (w.conversations key).historyRequested = true
  · rw [if_pos hrequested]
    exact .refl w
  · rw [if_neg hrequested]
    have hset : Calm clock w (w.setConversation key { w.conversations key with historyRequested := true }) :=
      calm_setConversation ..
    cases (w.conversations key).type with
    | privateChat => exact hset.trans (calm_sendLine rfl)
    | roomChat => exact hset.trans (calm_sendLine rfl)
    | none => exact hset

theorem calm_selectConversation : Calm clock w (w.selectConversation clock type id) := by
  have hread : ∀ (w : MainWindow) key, Calm clock w
      { w.setConversation key { w.conversations key with unreadCount := 0 } with
        currentType := type, currentConversationId := id } := fun _ _ => calm_of_eq rfl rfl rfl
  have hopened := (calm_ensureConversation clock w type id).trans
    (hread _ (conversationKey type id))
  rw [selectConversation]
  by_cases hnone : type = .none ∨ id = []
  · rw [if_pos hnone]
    exact calm_of_eq rfl rfl rfl
  · rw [if_neg hnone]
    by_cases hprivate : type = .privateChat
    · simp only [if_pos hprivate]
      exact (hopened.trans (calm_addUserIfMissing _)).trans (calm_requestHistoryIfNeeded _)
    · simp only [if_neg hprivate]
      exact (hopened.trans (calm_addRoomIfMissing _)).trans (calm_requestHistoryIfNeeded _)

theorem calm_removeRoom (room : QString) : Calm clock w (w.removeRoom clock room) := by
  have hfilter : Calm clock w { w with roomsList := w.roomsList.filter (· ≠ room) } := calm_of_eq rfl rfl rfl
  rw [removeRoom]
  dsimp only
  split_ifs
  · exact hfilter.trans calm_selectConversation
  · exact hfilter

theorem calm_updateUsers (users : List QString) : Calm clock w (w.updateUsers users) := by
  have hadd : ∀ (users : List QString) (w : MainWindow), Calm clock w (users.foldl addUserIfMissing w) := by
    intro users
    induction users with
    | nil => exact .refl
    | cons user users ih => exact fun w => (calm_addUserIfMissing user).trans (ih _)
  have hclear : Calm clock w { w with usersList := [] } := calm_of_eq rfl rfl rfl
  rw [updateUsers]
  split_ifs
  · exact (hclear.trans (hadd _ _)).trans (calm_addUserIfMissing _)
  · exact hclear.trans (hadd _ _)

theorem calm_sendCurrentMessage (text : QString) : Calm clock w (w.sendCurrentMessage clock text) := by
  have htyped : Calm clock w (w.typedMessage clock (trimmed text)).2 :=
    calm_currentSeconds.trans calm_nextLocalMessageKey
  rw [sendCurrentMessage]
  dsimp only
  by_cases hnone : trimmed text = [] ∨ w.currentType = .none ∨ w.currentConversationId = []
  · rw [if_pos hnone]
    exact .refl w
  · rw [if_neg hnone]
    refine htyped.trans (RoomClient.Calm.trans ?_ (calm_addMessageToConversation ..))
    refine calm_sendLine ?_
    split_ifs <;> rfl

theorem calm_eventMessage (message : ChatMessage) : Calm clock w (w.eventMessage clock message).2 := by
  rw [eventMessage]
  by_cases hstamped : message.createdAt > 0
  · simp only [if_pos hstamped]
    exact .refl w
  · simp only [if_neg hstamped]
    exact calm_currentSeconds

theorem calm_handlePrivateMessage (sender message : QString) (messageId createdAt : ℤ) :
    Calm clock w (w.handlePrivateMessage clock sender message messageId createdAt) :=
  ((calm_addUserIfMissing sender).trans (calm_eventMessage _)).trans (calm_addMessageToConversation ..)

theorem calm_handleRoomMessage (room sender message : QString) (messageId createdAt : ℤ) :
    Calm clock w (w.handleRoomMessage clock room sender message messageId createdAt) := by
  rw [handleRoomMessage]
  split_ifs
  · exact .refl w
  · exact ((calm_addRoomIfMissing room).trans (calm_eventMessage _)).trans (calm_addMessageToConversation ..)

/-- The loops of `mergePrivateHistory` and `mergeRoomHistory`. -/
theorem calm_mergeItems (name : QString) (values : List QJsonValue) :
    Calm clock w (values.foldl (fun w value => w.mergeItem clock type name value) w) := by
  induction values generalizing w with
  | nil => exact .refl w
  | cons value values ih =>
    refine RoomClient.Calm.trans ?_ ih
    show Calm clock w (w.mergeItem clock type name value)
    cases value with
    | object object =>
      rw [mergeItem]
      split_ifs
      · exact calm_addMessageToConversation ..
      · exact .refl w
    | _ => exact .refl w

theorem calm_handleDisconnected : Calm clock w (w.handleDisconnected clock) := by
  have hclosed : Calm clock w { w with connected := false, currentUsername := [] } := calm_of_eq rfl rfl rfl
  exact hclosed.trans (calm_appendMessage ..)

/-! ### Slots -/

/-- A room is remembered, and asked of the server. -/
theorem follows_ask (asked : RoomRequest) {request : Request} {sets : List RoomRequest}
    (hroom : request.room? = some asked) (hset : (client clock).Follows w w' sets)
    (hpending : ∀ room, w'.pendingRoom asked.action = some room → asked.room = room) :
    (client clock).Follows w (w'.sendLine clock request) sets := by
  rw [sendLine]
  split_ifs
  · refine hset.ask asked rfl ?_ hpending
    show (w'.requests ++ [request]).map Request.room? = w'.requests.map Request.room? ++ [some asked]
    rw [List.map_append, List.map_singleton, hroom]
  · exact hset.trans_calm (calm_showError _)

/-- `pendingJoinRoom_` is set. -/
theorem follows_setJoin (hleave : w'.pendingLeaveRoom = w.pendingLeaveRoom) (hrequests : w'.requests = w.requests) :
    (client clock).Follows w w' [⟨.join, w'.pendingJoinRoom⟩] := by
  refine RoomClient.follows_of_sent_eq ?_ (congrArg (List.map Request.room?) hrequests)
  intro action room hroom
  cases action with
  | create => exact absurd hroom nofun
  | join =>
    rw [roomOf_eq_some hroom]
    exact .inr (List.mem_singleton_self _)
  | leave => exact .inl ((congrArg roomOf hleave).symm.trans hroom)

/-- `pendingLeaveRoom_` is set. -/
theorem follows_setLeave (hjoin : w'.pendingJoinRoom = w.pendingJoinRoom) (hrequests : w'.requests = w.requests) :
    (client clock).Follows w w' [⟨.leave, w'.pendingLeaveRoom⟩] := by
  refine RoomClient.follows_of_sent_eq ?_ (congrArg (List.map Request.room?) hrequests)
  intro action room hroom
  cases action with
  | create => exact absurd hroom nofun
  | join => exact .inl ((congrArg roomOf hjoin).symm.trans hroom)
  | leave =>
    rw [roomOf_eq_some hroom]
    exact .inr (List.mem_singleton_self _)

/-- **What the user does** sets the room that is asked about. -/
theorem follows_act (w : MainWindow) (input : Input) :
    (client clock).Follows w ((client clock).act w input) ((client clock).actSets w input) := by
  cases input with
  | refreshUsers => exact RoomClient.Calm.follows (calm_sendLine rfl)
  | createRoom room =>
    show (client clock).Follows w (w.createRoom clock room) _
    rw [createRoom]
    split_ifs
    · exact RoomClient.Calm.follows (.refl w)
    · have hset : Calm clock w { w with pendingCreateRoom := trimmed room } := calm_of_eq rfl rfl rfl
      exact follows_ask ⟨.create, trimmed room⟩ rfl hset.follows nofun
  | joinRoom room =>
    show (client clock).Follows w (w.joinRoom clock room) _
    rw [joinRoom]
    split_ifs
    · exact RoomClient.Calm.follows (.refl w)
    · have hset : (client clock).Follows w { w with pendingJoinRoom := trimmed room } [⟨.join, trimmed room⟩] :=
        follows_setJoin rfl rfl
      exact follows_ask ⟨.join, trimmed room⟩ rfl hset fun _ => roomOf_eq_some
  | leaveRoom room =>
    show (client clock).Follows w (w.leaveRoom clock room) _
    rw [leaveRoom]
    split_ifs
    · exact RoomClient.Calm.follows (calm_appendMessage ..)
    · have hset : (client clock).Follows w { w with pendingLeaveRoom := room } [⟨.leave, room⟩] :=
        follows_setLeave rfl rfl
      exact follows_ask ⟨.leave, room⟩ rfl hset fun _ => roomOf_eq_some
  | selectConversation type id => exact RoomClient.Calm.follows calm_selectConversation
  | sendCurrentMessage text => exact RoomClient.Calm.follows (calm_sendCurrentMessage text)
  | object object => exact RoomClient.Calm.follows (.refl w)
  | invalidLine error => exact RoomClient.Calm.follows (calm_showError _)
  | connectionError error => exact RoomClient.Calm.follows (calm_showError _)
  | disconnected => exact RoomClient.Calm.follows calm_handleDisconnected

theorem readSets_of_created {object : QJsonObject} (htype : stringValue object "type" = "ok".toList)
    (hmessage : stringValue object "message" = "room created".toList) (hroom : w.pendingCreateRoom ≠ []) :
    w.readSets object = [⟨.join, w.pendingCreateRoom⟩] := by
  have hreports : reports object = some .create := RoomAction.reported_eq_some.mpr ⟨htype, hmessage⟩
  rw [readSets, if_pos hreports, roomOf, if_neg hroom]
  rfl

/-- **`showInfo`** sets a pending room only when a room has been created. -/
theorem follows_showInfo (w : MainWindow) (message : QString) (sets : List RoomRequest)
    (hsets : message = "room created".toList → w.pendingCreateRoom ≠ [] → sets = [⟨.join, w.pendingCreateRoom⟩]) :
    (client clock).Follows w (w.showInfo clock message) sets := by
  rw [showInfo]
  by_cases hcreated : message = "room created".toList ∧ w.pendingCreateRoom ≠ []
  · rw [if_pos hcreated, hsets hcreated.1 hcreated.2]
    have hset : (client clock).Follows w
        { w with pendingJoinRoom := w.pendingCreateRoom, pendingCreateRoom := [] } [⟨.join, w.pendingCreateRoom⟩] :=
      follows_setJoin rfl rfl
    exact follows_ask ⟨.join, w.pendingCreateRoom⟩ rfl hset fun _ => roomOf_eq_some
  rw [if_neg hcreated]
  by_cases hjoined : message = "joined room".toList ∧ w.pendingJoinRoom ≠ []
  · rw [if_pos hjoined]
    have hclear : Calm clock (w.addRoomIfMissing w.pendingJoinRoom)
        { w.addRoomIfMissing w.pendingJoinRoom with pendingJoinRoom := [] } :=
      calm_of_kept (.inr rfl) (.inl rfl) rfl
    exact RoomClient.Calm.follows ((((calm_addRoomIfMissing _).trans hclear).trans calm_selectConversation).trans
      (calm_appendMessage ..))
  rw [if_neg hjoined]
  by_cases hleft : message = "left room".toList ∧ w.pendingLeaveRoom ≠ []
  · rw [if_pos hleft]
    have hclear : Calm clock (w.removeRoom clock w.pendingLeaveRoom)
        { w.removeRoom clock w.pendingLeaveRoom with pendingLeaveRoom := [] } :=
      calm_of_kept (.inl rfl) (.inr rfl) rfl
    exact RoomClient.Calm.follows (((calm_removeRoom _).trans hclear).trans (calm_appendMessage ..))
  rw [if_neg hleft]
  split_ifs
  · exact RoomClient.Calm.follows (.refl w)
  · exact RoomClient.Calm.follows (calm_appendMessage ..)

/-- **A message of the server.** -/
theorem follows_read (w : MainWindow) (object : QJsonObject) :
    (client clock).Follows w ((client clock).read w object) ((client clock).readSets w object) := by
  show (client clock).Follows w (w.handleObject clock object) (w.readSets object)
  rw [handleObject]
  by_cases hok : stringValue object "type" = "ok".toList
  · rw [if_pos hok, handleOk]
    by_cases hlogged : "logged in as ".toList <+: stringValue object "message"
    · rw [if_pos hlogged]
      exact RoomClient.Calm.follows (calm_of_eq rfl rfl rfl)
    · rw [if_neg hlogged]
      by_cases hout : stringValue object "message" = "logged out".toList
      · simp only [if_pos hout]
        exact follows_showInfo { w with currentUsername := [] } _ _ (readSets_of_created (w := w) hok)
      · simp only [if_neg hout]
        exact follows_showInfo w _ _ (readSets_of_created hok)
  rw [if_neg hok]
  split_ifs
  · exact RoomClient.Calm.follows (calm_showError _)
  · exact RoomClient.Calm.follows (calm_updateUsers _)
  · exact RoomClient.Calm.follows (calm_handlePrivateMessage ..)
  · exact RoomClient.Calm.follows (calm_handleRoomMessage ..)
  · split
    · exact RoomClient.Calm.follows (calm_mergeItems ..)
    · exact RoomClient.Calm.follows (calm_showError _)
  · split
    · exact RoomClient.Calm.follows (calm_mergeItems ..)
    · exact RoomClient.Calm.follows (calm_showError _)
  · exact RoomClient.Calm.follows (calm_showError _)

theorem lawful_client (clock : ℕ → ℤ) : (client clock).Lawful where
  act := follows_act
  read := follows_read
  succeeded _ := RoomAction.reported_eq_some.mpr ⟨rfl, rfl⟩
  failed := RoomAction.reported_error
  announces _ _ _ := RoomRequest.announced_eq_some.mp

/-! ### What is announced -/

/-- An announcement is an entry of the conversation, and the room is put on the list or taken off it. -/
theorem handleObject_announces {object : QJsonObject} {request : RoomRequest}
    (h : w.announces object = some request) : w.handleObject clock object =
      if request.action = .join then
        ({ w.addRoomIfMissing request.room with pendingJoinRoom := [] }.selectConversation clock .roomChat
          request.room).appendSystemMessage clock ("Joined room: ".toList ++ request.room)
      else
        { w.removeRoom clock request.room with pendingLeaveRoom := [] }.appendSystemMessage clock
          ("Left room: ".toList ++ request.room) := by
  obtain ⟨hreports, hpending⟩ := RoomRequest.announced_eq_some.mp h
  obtain ⟨htype, htext⟩ := RoomAction.reported_eq_some.mp hreports
  have hno : ∀ action : RoomAction, ¬ "logged in as ".toList <+: action.success.toList := by
    intro action
    cases action <;> decide
  have hstays : ∀ action : RoomAction, action.success.toList ≠ "logged out".toList := by
    intro action
    cases action <;> decide
  rw [handleObject, htype, if_pos rfl, handleOk, htext, if_neg (hno _)]
  simp only [if_neg (hstays _)]
  cases haction : request.action with
  | create =>
    rw [haction] at hpending
    exact absurd hpending nofun
  | join =>
    rw [haction] at hpending
    have hroom : w.pendingJoinRoom = request.room := roomOf_eq_some hpending
    have hne : w.pendingJoinRoom ≠ [] := by
      intro hnil
      exact absurd ((congrArg roomOf hnil).symm.trans hpending) nofun
    rw [showInfo, if_neg fun h => absurd h.1 (by decide), if_pos ⟨rfl, hne⟩, hroom]
    rfl
  | leave =>
    rw [haction] at hpending
    have hroom : w.pendingLeaveRoom = request.room := roomOf_eq_some hpending
    have hne : w.pendingLeaveRoom ≠ [] := by
      intro hnil
      exact absurd ((congrArg roomOf hnil).symm.trans hpending) nofun
    rw [showInfo, if_neg fun h => absurd h.1 (by decide), if_neg fun h => absurd h.1 (by decide), if_pos ⟨rfl, hne⟩,
      hroom]
    rfl

end MainWindow

end Qt

end ChatService
