import ChatService.Foundation.Emissions
import ChatService.Server.RoomPresence

/-!
# Every request is answered, in order

A client of the line protocol matches a reply to its request by nothing but the order in which they come.
This works: each connection is sent the replies to its requests in the order of the requests, one for each,
whatever the other connections do meanwhile and whatever events come in between.  Only a room message that was
saved and a call request whose operation succeeded have no reply.

A reply is told from an event by its type (`Outgoing.reply?`); it is only ever sent on the connection of the
handler that sends it (`Op.RepliesTo`).
-/

namespace ChatService

open AtomicProgram

inductive Reply where
  | ok
  | error
  | users
  | callError
  | callBusy
  | privateHistory
  | roomHistory
deriving DecidableEq

/-- Which reply a line is; an event is none. -/
def Outgoing.reply? : Outgoing → Option Reply
  | json object =>
    let type := fieldOrEmpty object "type"
    if type = ascii "ok" then some .ok
    else if type = ascii "error" then some .error
    else if type = ascii "users" then some .users
    else if type = ascii "call_error" then some .callError
    else if type = ascii "call_busy" then some .callBusy
    else none
  | signaling _ _ _ _ _ _ => none
  | privateHistory _ _ => some .privateHistory
  | roomHistory _ _ => some .roomHistory

/-- The replies that a request may have, one of them at a time. -/
def repliesTo (request : JsonObject) : List Reply :=
  let type := fieldOrEmpty request "type"
  if type = ascii "users" then [.users]
  else if type = ascii "room_msg" then [.error]
  else if type = ascii "history_private" then [.privateHistory, .error]
  else if type = ascii "history_room" then [.roomHistory, .error]
  else if isCallType type then [.callError, .callBusy, .error]
  else if type = ascii "login" ∨ type = ascii "logout" ∨ type = ascii "private" ∨
    type = ascii "create_room" ∨ type = ascii "join" ∨ type = ascii "leave" then [.ok, .error]
  else [.error]

/-- What is noted of a handler: a reply on its own connection, that its room message was saved or that an
operation of `CallManager` succeeded, and that it looked a user up who is offline. -/
inductive Noted where
  | reply (payload : Outgoing)
  | succeeded
  | offline
deriving DecidableEq

def Noted.reply? : Noted → Option Outgoing
  | reply payload => some payload
  | succeeded => none
  | offline => none

/-- The replies among the notes. -/
def repliesIn (notes : List Noted) : List Outgoing := notes.filterMap Noted.reply?

/-- There is one reply, of one of these kinds. -/
def OneOf (kinds : List Reply) (notes : List Noted) : Prop :=
  ∃ reply kind, repliesIn notes = [reply] ∧ reply.reply? = some kind ∧ kind ∈ kinds

/-- A room message is answered if and only if it was not saved. -/
def RoomAnswer (kinds : List Reply) (notes : List Noted) : Prop :=
  (repliesIn notes = [] ∧ .succeeded ∈ notes) ∨ (OneOf kinds notes ∧ .succeeded ∉ notes)

/-- A call request is answered unless its operation succeeded; when it did, it is answered all the same only if
the other side turned out to be offline. -/
def CallAnswer (kinds : List Reply) (notes : List Noted) : Prop :=
  (repliesIn notes = [] ∧ .succeeded ∈ notes) ∨ (OneOf kinds notes ∧ (.succeeded ∈ notes → .offline ∈ notes))

/-- How a request is answered. -/
def RequestAnswer (request : JsonObject) : List Noted → Prop :=
  if fieldOrEmpty request "type" = ascii "room_msg" then RoomAnswer (repliesTo request)
  else if isCallType (fieldOrEmpty request "type") then CallAnswer (repliesTo request)
  else OneOf (repliesTo request)

/-- What a connection is answered. -/
def Answers : Input → List Noted → Prop
  | .connected, notes => OneOf [.ok] notes
  | .disconnected, notes => repliesIn notes = []
  | .reaction (.dispatch _ request), notes => RequestAnswer request notes
  | .reaction (.parseError _ _), notes => OneOf [.error] notes
  | .reaction (.fault _), notes => repliesIn notes = []
  | .reaction .tooLarge, notes => OneOf [.error] notes

/-- What is noted of an action of the handler on connection `c`. -/
def noteOut (c : Conn) : Event Op Op.Response → List Noted
  | ⟨.send connection payload, _⟩ =>
    if connection = c ∧ payload.reply?.isSome then [.reply payload] else []
  | ⟨.saveRoomMessage _ _ _ _, some _⟩ => [.succeeded]
  | ⟨.startCall _ _ _, none⟩ => [.succeeded]
  | ⟨.acceptCall _ _ _, none⟩ => [.succeeded]
  | ⟨.rejectCall _ _ _, none⟩ => [.succeeded]
  | ⟨.cancelCall _ _ _, none⟩ => [.succeeded]
  | ⟨.timeoutCall _ _ _, none⟩ => [.succeeded]
  | ⟨.hangupCall _ _ _, none⟩ => [.succeeded]
  | ⟨.validateSignaling _ _ _ _, none⟩ => [.succeeded]
  | ⟨.userFind _, none⟩ => [.offline]
  | _ => []

/-- Connection `c` sends replies to itself only. -/
def Op.RepliesTo (c : Conn) : Op → Prop
  | .send connection payload => payload.reply?.isSome → connection = c
  | _ => True

/-! ### What is a reply -/

theorem reply?_json (object : JsonObject) : (Outgoing.json object).reply? =
    if fieldOrEmpty object "type" = ascii "ok" then some .ok
    else if fieldOrEmpty object "type" = ascii "error" then some .error
    else if fieldOrEmpty object "type" = ascii "users" then some .users
    else if fieldOrEmpty object "type" = ascii "call_error" then some .callError
    else if fieldOrEmpty object "type" = ascii "call_busy" then some .callBusy
    else none := rfl

theorem reply?_ok (message : Bytes) : (Outgoing.json (makeOkResponse message)).reply? = some .ok := by
  rw [reply?_json, type_makeOkResponse, if_pos rfl]

theorem reply?_privateResponse (text target : Bytes) (messageId createdAt : ℤ) :
    (Outgoing.json (privateResponse text target messageId createdAt)).reply? = some .ok := by
  rw [reply?_json, type_privateResponse, if_pos rfl]

theorem reply?_error (message : Bytes) : (Outgoing.json (makeErrorResponse message)).reply? = some .error := by
  rw [reply?_json, type_makeErrorResponse]
  decide

theorem reply?_users (users : List Bytes) : (Outgoing.json (usersResponse users)).reply? = some .users := by
  rw [reply?_json, type_usersResponse]
  decide

theorem reply?_callError (username callId reason : Bytes) :
    (Outgoing.json (makeCallError username callId reason)).reply? = some .callError := by
  rw [reply?_json, makeCallError, type_makeCallReply]
  decide

theorem reply?_callBusy (username callId reason : Bytes) :
    (Outgoing.json (makeCallBusy username callId reason)).reply? = some .callBusy := by
  rw [reply?_json, makeCallBusy, type_makeCallReply]
  decide

theorem reply?_privateEvent (username message : Bytes) (messageId createdAt : ℤ) :
    (Outgoing.json (privateEvent username message messageId createdAt)).reply? = none := by
  rw [reply?_json, type_privateEvent]
  decide

theorem reply?_roomEvent (room username message : Bytes) (messageId createdAt : ℤ) :
    (Outgoing.json (roomEvent room username message messageId createdAt)).reply? = none := by
  rw [reply?_json, type_roomEvent]
  decide

/-- A line of a call type is an event. -/
theorem reply?_of_isCallType {object : JsonObject} (h : isCallType (fieldOrEmpty object "type") = true) :
    (Outgoing.json object).reply? = none := by
  have hne : ∀ {text}, isCallType (ascii text) = false → fieldOrEmpty object "type" ≠ ascii text :=
    ne_of_isCallType h
  rw [reply?_json, if_neg (hne (by decide)), if_neg (hne (by decide)), if_neg (hne (by decide)),
    if_neg (hne (by decide)), if_neg (hne (by decide))]

theorem reply?_callEvent {type : Bytes} (h : isCallType type = true) (username target callId reason : Bytes) :
    (Outgoing.json (makeCallEvent type username target callId reason)).reply? = none := by
  refine reply?_of_isCallType ?_
  rwa [(makeCallEvent_fields type username target callId reason).1]

/-! ### Notes -/

@[simp] theorem repliesIn_nil : repliesIn [] = [] := rfl

@[simp] theorem repliesIn_append (notes more : List Noted) :
    repliesIn (notes ++ more) = repliesIn notes ++ repliesIn more :=
  List.filterMap_append

@[simp] theorem repliesIn_reply (payload : Outgoing) : repliesIn [.reply payload] = [payload] := rfl

@[simp] theorem repliesIn_succeeded : repliesIn [.succeeded] = [] := rfl

@[simp] theorem repliesIn_offline : repliesIn [.offline] = [] := rfl

theorem repliesIn_flatten (blocks : List (List Noted)) :
    repliesIn blocks.flatten = blocks.flatMap repliesIn := by
  induction blocks with
  | nil => rfl
  | cons block blocks ih => rw [List.flatten_cons, repliesIn_append, ih, List.flatMap_cons]

theorem noteOut_send (c connection : Conn) (payload : Outgoing) (r : (Op.send connection payload).Response) :
    noteOut c ⟨.send connection payload, r⟩ =
      if connection = c ∧ payload.reply?.isSome then [.reply payload] else [] := rfl

/-- The first reply is the only one. -/
theorem oneOf_reply {notes : List Noted} (hnotes : repliesIn notes = []) {payload : Outgoing} {kind : Reply}
    {kinds : List Reply} (hpayload : payload.reply? = some kind) (hkind : kind ∈ kinds) :
    OneOf kinds (notes ++ [.reply payload]) :=
  ⟨payload, kind, by simp [hnotes], hpayload, hkind⟩

theorem oneOf_only {payload : Outgoing} {kind : Reply} {kinds : List Reply} (hpayload : payload.reply? = some kind)
    (hkind : kind ∈ kinds) : OneOf kinds [.reply payload] :=
  ⟨payload, kind, rfl, hpayload, hkind⟩

/-! ### What the handlers answer -/

/-- When `xs` has been noted already, `c` goes on so that it ends with `Q`. -/
def Replies {α : Type} (c : Conn) (xs : List Noted) (p : Handler α) (Q : List Noted → α → Prop) : Prop :=
  p.Emits (Op.RepliesTo c) (noteOut c) xs Q

section

variable {c : Conn} {α : Type} {xs : List Noted}

/-- An action of which nothing is noted. -/
theorem replies_call {op : Op} {next : op.Response → Handler α} {Q : List Noted → α → Prop}
    (hmay : op.RepliesTo c) (hop : ∀ r, noteOut c ⟨op, r⟩ = []) (hnext : ∀ r, Replies c xs (next r) Q) :
    Replies c xs (.call op next) Q := by
  refine ⟨hmay, fun r => ?_⟩
  rw [hop r, List.append_nil]
  exact hnext r

/-- A reply goes out. -/
theorem replies_send {payload : Outgoing} {kind : Reply} {Q : List Noted → Unit → Prop}
    (hpayload : payload.reply? = some kind) (hQ : Q (xs ++ [.reply payload]) ()) :
    Replies c xs (act (.send c payload)) Q := by
  refine ⟨fun _ => rfl, fun _ => ?_⟩
  have hout : noteOut c ⟨.send c payload, ()⟩ = [.reply payload] := by simp [noteOut_send, hpayload]
  rw [hout]
  exact hQ

/-- An event goes out. -/
theorem replies_event {payload : Outgoing} (hpayload : payload.reply? = none) (connection : Conn)
    {next : Unit → Handler α} {Q : List Noted → α → Prop} (hnext : Replies c xs (next ()) Q) :
    Replies c xs (.call (.send connection payload) next) Q :=
  replies_call (fun h => absurd h (by simp [hpayload])) (fun _ => by simp [noteOut_send, hpayload]) fun _ => hnext

/-- The only reply goes out. -/
theorem replies_one (hxs : repliesIn xs = []) {payload : Outgoing} {kind : Reply} {kinds : List Reply}
    (hpayload : payload.reply? = some kind) (hkind : kind ∈ kinds) :
    Replies c xs (act (.send c payload)) fun ys _ => OneOf kinds ys :=
  replies_send hpayload (oneOf_reply hxs hpayload hkind)

theorem replies_sendError (hxs : repliesIn xs = []) (message : Bytes) {kinds : List Reply}
    (hkinds : .error ∈ kinds) : Replies c xs (sendError c message) fun ys _ => OneOf kinds ys :=
  replies_one hxs (reply?_error message) hkinds

theorem replies_sendOk (hxs : repliesIn xs = []) (message : Bytes) {kinds : List Reply} (hkinds : .ok ∈ kinds) :
    Replies c xs (sendJson c (makeOkResponse message)) fun ys _ => OneOf kinds ys :=
  replies_one hxs (reply?_ok message) hkinds

theorem Replies.mono {p : Handler α} {Q Q' : List Noted → α → Prop} (h : Replies c xs p Q)
    (hQ : ∀ ys a, Q ys a → Q' ys a) : Replies c xs p Q' :=
  Prog.Emits.mono h hQ

/-- A handler that asks for a login: without one the error is its reply. -/
theorem replies_requireLoggedIn {f : Option Bytes → Handler Unit} {R : List Noted → Prop}
    (hR : ∀ payload : Outgoing, payload.reply? = some .error → R [.reply payload]) (hnone : f none = .ret ())
    (hsome : ∀ username, Replies c [] (f (some username)) fun ys _ => R ys) :
    Replies c [] (requireLoggedIn c >>= f) fun ys _ => R ys := by
  refine Prog.Emits.bind (replies_call trivial (fun _ => rfl) fun username => ?_)
  show Replies c [] (if username = [] then _ else _) _
  split_ifs
  · refine Prog.Emits.bind (replies_send (reply?_error _) ?_)
    show Replies c _ (f none) _
    rw [hnone]
    exact hR _ (reply?_error _)
  · exact hsome username

/-- The same for a handler that always replies. -/
theorem replies_requireLoggedIn_one {f : Option Bytes → Handler Unit} {kinds : List Reply}
    (hkinds : .error ∈ kinds) (hnone : f none = .ret ())
    (hsome : ∀ username, Replies c [] (f (some username)) fun ys _ => OneOf kinds ys) :
    Replies c [] (requireLoggedIn c >>= f) fun ys _ => OneOf kinds ys :=
  replies_requireLoggedIn (fun _ hpayload => oneOf_only hpayload hkinds) hnone hsome

theorem login_replies (username : Bytes) :
    Replies c [] (login c username) fun ys _ => OneOf [.ok, .error] ys := by
  refine replies_call trivial (fun _ => rfl) fun name => ?_
  show Replies c [] (if name ≠ [] then _ else _) _
  split_ifs
  · exact replies_sendError rfl _ (by simp)
  · refine replies_call trivial (fun _ => rfl) fun result => ?_
    cases result with
    | some error => exact replies_sendError rfl error (by simp)
    | none => exact replies_call trivial (fun _ => rfl) fun _ => replies_sendOk rfl _ (by simp)

/-- The peer of the call is told with an event. -/
theorem leaveCall_replies (username : Bytes) :
    Replies c [] (leaveCall username) fun ys _ => repliesIn ys = [] := by
  refine replies_call trivial (fun _ => rfl) fun event => ?_
  cases event with
  | none => exact rfl
  | some callEvent =>
    refine ⟨trivial, fun found => ?_⟩
    cases found with
    | none => exact rfl
    | some peerConnection =>
      refine replies_event (reply?_callEvent ?_ _ _ _ _) peerConnection rfl
      rw [disconnectType]
      split_ifs <;> decide

/-- A logout is answered if the client asked for it. -/
theorem logout_replies (notifyClient : Bool) :
    Replies c [] (logout c notifyClient) fun ys _ =>
      if notifyClient then OneOf [.ok, .error] ys else repliesIn ys = [] := by
  refine replies_call trivial (fun _ => rfl) fun name => ?_
  show Replies c [] (if name = [] then _ else _) _
  split_ifs
  · exact replies_sendError rfl _ (by simp)
  · exact rfl
  · refine Prog.Emits.bind ((leaveCall_replies name).mono fun ys _ hys => ?_)
    exact replies_call trivial (fun _ => rfl) fun _ => replies_call trivial (fun _ => rfl) fun _ =>
      replies_call trivial (fun _ => rfl) fun _ => replies_sendOk hys _ (by simp)
  · refine Prog.Emits.bind ((leaveCall_replies name).mono fun ys _ hys => ?_)
    exact replies_call trivial (fun _ => rfl) fun _ => replies_call trivial (fun _ => rfl) fun _ =>
      replies_call trivial (fun _ => rfl) fun _ => hys

theorem sendOnlineUsers_replies : Replies c [] (sendOnlineUsers c) fun ys _ => OneOf [.users] ys :=
  replies_call trivial (fun _ => rfl) fun users => replies_one rfl (reply?_users users) (by simp)

theorem answerRoom_replies (success : String) (result : Option Bytes) :
    Replies c [] (answerRoom c success result) fun ys _ => OneOf [.ok, .error] ys := by
  cases result with
  | none => exact replies_sendOk rfl _ (by simp)
  | some error => exact replies_sendError rfl error (by simp)

theorem createRoom_replies (room : Bytes) :
    Replies c [] (createRoom c room) fun ys _ => OneOf [.ok, .error] ys :=
  replies_requireLoggedIn_one (by simp) rfl fun _ =>
    replies_call trivial (fun _ => rfl) fun result => answerRoom_replies _ result

theorem joinRoom_replies (room : Bytes) : Replies c [] (joinRoom c room) fun ys _ => OneOf [.ok, .error] ys :=
  replies_requireLoggedIn_one (by simp) rfl fun _ =>
    replies_call trivial (fun _ => rfl) fun result => answerRoom_replies _ result

theorem leaveRoom_replies (room : Bytes) : Replies c [] (leaveRoom c room) fun ys _ => OneOf [.ok, .error] ys :=
  replies_requireLoggedIn_one (by simp) rfl fun _ =>
    replies_call trivial (fun _ => rfl) fun result => answerRoom_replies _ result

/-- The sender is answered after the receiver has been sent the event. -/
theorem sendPrivate_replies (target message : Bytes) :
    Replies c [] (sendPrivate c target message) fun ys _ => OneOf [.ok, .error] ys := by
  refine replies_requireLoggedIn_one (by simp) rfl fun username => ?_
  dsimp only
  split_ifs
  · exact replies_sendError rfl _ (by simp)
  · exact replies_sendError rfl _ (by simp)
  · refine replies_call trivial (fun _ => rfl) fun createdAt => replies_call trivial (fun _ => rfl) fun saved => ?_
    cases saved with
    | none => exact replies_sendError rfl _ (by simp)
    | some messageId =>
      refine ⟨trivial, fun found => ?_⟩
      cases found with
      | none => exact replies_one rfl (reply?_privateResponse _ _ _ _) (by simp)
      | some targetConnection =>
        exact replies_event (reply?_privateEvent _ _ _ _) targetConnection
          (replies_one rfl (reply?_privateResponse _ _ _ _) (by simp))

theorem sendToAll_replies {payload : Outgoing} (hpayload : payload.reply? = none) (connections : List Conn) :
    Replies c xs (sendToAll payload connections) fun ys _ => ys = xs := by
  induction connections with
  | nil => exact rfl
  | cons connection connections ih => exact replies_event hpayload connection ih

/-- A room message that is saved is answered with its event, which is no reply. -/
theorem sendRoomMessage_replies (room message : Bytes) :
    Replies c [] (sendRoomMessage c room message) fun ys _ => RoomAnswer [.error] ys := by
  have hrefused : ∀ payload : Outgoing, payload.reply? = some .error → RoomAnswer [.error] [.reply payload] :=
    fun _ hpayload => .inr ⟨oneOf_only hpayload (by simp), by simp⟩
  have herror : ∀ text, Replies c [] (sendError c text) fun ys _ => RoomAnswer [.error] ys :=
    fun text => replies_send (reply?_error text) (hrefused _ (reply?_error text))
  refine replies_requireLoggedIn hrefused rfl fun username => ?_
  dsimp only
  split_ifs
  · exact herror _
  · refine replies_call trivial (fun _ => rfl) fun members => ?_
    cases members with
    | error error => exact herror error
    | ok members =>
      refine replies_call trivial (fun _ => rfl) fun createdAt => ⟨trivial, fun saved => ?_⟩
      cases saved with
      | none => exact herror _
      | some messageId =>
        refine replies_call trivial (fun _ => rfl) fun connections =>
          (sendToAll_replies (reply?_roomEvent _ _ _ _ _) connections).mono fun ys _ hys => ?_
        subst hys
        exact .inl ⟨rfl, by simp [noteOut]⟩

theorem sendPrivateHistory_replies (peer limitText before : Bytes) :
    Replies c [] (sendPrivateHistory c peer limitText before) fun ys _ => OneOf [.privateHistory, .error] ys := by
  refine replies_requireLoggedIn_one (by simp) rfl fun username => ?_
  dsimp only
  split_ifs
  · exact replies_sendError rfl _ (by simp)
  · exact replies_call trivial (fun _ => rfl) fun messages => replies_one rfl rfl (by simp)

theorem sendRoomHistory_replies (room limitText before : Bytes) :
    Replies c [] (sendRoomHistory c room limitText before) fun ys _ => OneOf [.roomHistory, .error] ys := by
  refine replies_requireLoggedIn_one (by simp) rfl fun username => ?_
  dsimp only
  split_ifs
  · exact replies_sendError rfl _ (by simp)
  · exact replies_call trivial (fun _ => rfl) fun messages => replies_one rfl rfl (by simp)

/-! Calls. -/

/-- A call request is refused: nothing has succeeded, or the other side is offline by now. -/
theorem callAnswer_reply (hxs : repliesIn xs = []) (hoffline : .succeeded ∈ xs → .offline ∈ xs)
    {payload : Outgoing} {kind : Reply} {kinds : List Reply} (hpayload : payload.reply? = some kind)
    (hkind : kind ∈ kinds) : CallAnswer kinds (xs ++ [.reply payload]) := by
  refine .inr ⟨oneOf_reply hxs hpayload hkind, fun hsucceeded => ?_⟩
  have hbefore : Noted.succeeded ∈ xs := by simpa using hsucceeded
  exact List.mem_append_left _ (hoffline hbefore)

/-- Without a login it is refused as well. -/
theorem callAnswer_only {payload : Outgoing} {kind : Reply} {kinds : List Reply} (hpayload : payload.reply? = some kind)
    (hkind : kind ∈ kinds) : CallAnswer kinds [.reply payload] :=
  .inr ⟨oneOf_only hpayload hkind, by simp⟩

/-- The replies of a call request. -/
def callReplies : List Reply := [.callError, .callBusy, .error]

theorem refused_callError (hxs : repliesIn xs = []) (hoffline : .succeeded ∈ xs → .offline ∈ xs)
    (username callId reason : Bytes) :
    Replies c xs (sendCallError c username callId reason) fun ys _ => CallAnswer callReplies ys :=
  replies_send (reply?_callError username callId reason)
    (callAnswer_reply hxs hoffline (reply?_callError username callId reason) (by simp [callReplies]))

variable {username target callId : Bytes}

theorem handleInvite_replies (request : JsonObject) :
    Replies c [] (handleInvite c request username target callId) fun ys _ => CallAnswer callReplies ys := by
  rw [handleInvite]
  split_ifs
  · exact refused_callError rfl (by simp) _ _ _
  refine ⟨trivial, fun found => ?_⟩
  cases found with
  | none => exact refused_callError rfl (by simp [noteOut]) _ _ _
  | some targetConnection =>
    refine ⟨trivial, fun started => ?_⟩
    cases started with
    | some reason =>
      show Replies c _ (if _ then _ else _) _
      split_ifs
      · exact replies_send (reply?_callBusy _ _ _)
          (callAnswer_reply rfl (by simp [noteOut]) (reply?_callBusy _ _ _) (by simp [callReplies]))
      · exact refused_callError rfl (by simp [noteOut]) _ _ _
    | none =>
      refine ⟨trivial, fun found => ?_⟩
      cases found with
      | none =>
        refine ⟨trivial, fun cancelled => ?_⟩
        exact refused_callError (by cases cancelled <;> rfl) (fun _ => by simp [noteOut]) _ _ _
      | some targetConnection =>
        refine replies_event (reply?_of_isCallType ?_) targetConnection (.inl ⟨rfl, by simp [noteOut]⟩)
        rw [fieldOrEmpty_insert_of_ne _ _ (by decide), (makeCallEvent_fields _ username target callId []).1]
        decide

theorem handleSignaling_replies (request : JsonObject) (type : Bytes) :
    Replies c [] (handleSignaling c request type username target callId) fun ys _ =>
      CallAnswer callReplies ys := by
  rw [handleSignaling]
  split_ifs
  · exact refused_callError rfl (by simp) _ _ _
  refine ⟨trivial, fun valid => ?_⟩
  cases valid with
  | some reason => exact refused_callError rfl (by simp [noteOut]) _ _ _
  | none =>
    refine ⟨trivial, fun found => ?_⟩
    cases found with
    | none =>
      refine ⟨trivial, fun hungUp => ?_⟩
      exact refused_callError (by cases hungUp <;> rfl) (fun _ => by simp [noteOut]) _ _ _
    | some targetConnection => exact replies_event rfl targetConnection (.inl ⟨rfl, by simp [noteOut]⟩)

/-- It is noted whether the operation succeeded. -/
theorem callOperation_replies (type : Bytes) :
    Replies c [] (callOperation type username target callId) fun ys result =>
      ys = if result = none then [.succeeded] else [] := by
  rw [callOperation]
  split_ifs
  · exact ⟨trivial, fun result => by cases result <;> rfl⟩
  · exact ⟨trivial, fun result => by cases result <;> rfl⟩
  · exact ⟨trivial, fun result => by cases result <;> rfl⟩
  · exact ⟨trivial, fun result => by cases result <;> rfl⟩
  · exact ⟨trivial, fun result => by cases result <;> rfl⟩
  · exact rfl

theorem handleCallAction_replies (request : JsonObject) {type : Bytes} (htype : isCallType type = true) :
    Replies c [] (handleCallAction c request type username target callId) fun ys _ =>
      CallAnswer callReplies ys := by
  refine Prog.Emits.bind ((callOperation_replies type).mono fun ys result hys => ?_)
  subst hys
  cases result with
  | some reason => exact refused_callError rfl (by simp) _ _ _
  | none =>
    rw [if_pos rfl]
    refine ⟨trivial, fun found => ?_⟩
    cases found with
    | some targetConnection =>
      exact replies_event (reply?_callEvent htype _ _ _ _) targetConnection (.inl ⟨rfl, by simp [noteOut]⟩)
    | none =>
      show Replies c _ (if type = ascii "call_accept" then _ else _) _
      split_ifs
      · refine ⟨trivial, fun hungUp => ?_⟩
        exact refused_callError (by cases hungUp <;> rfl) (fun _ => by simp [noteOut]) _ _ _
      · exact .inl ⟨rfl, by simp [noteOut]⟩

theorem handleCallRequest_replies (request : JsonObject)
    (htype : isCallType (fieldOrEmpty request "type") = true) :
    Replies c [] (handleCallRequest c request) fun ys _ => CallAnswer callReplies ys := by
  refine replies_requireLoggedIn (fun _ hpayload => callAnswer_only hpayload (by simp [callReplies])) rfl
    fun username => ?_
  dsimp only
  split_ifs
  · exact refused_callError rfl (by simp) _ _ _
  · exact refused_callError rfl (by simp) _ _ _
  · exact refused_callError rfl (by simp) _ _ _
  · exact handleInvite_replies request
  · exact handleSignaling_replies request _
  · exact handleCallAction_replies request htype

theorem requestAnswer_of_callType {request : JsonObject}
    (htype : isCallType (fieldOrEmpty request "type") = true) :
    RequestAnswer request = CallAnswer callReplies := by
  have hne : ∀ {text}, isCallType (ascii text) = false → fieldOrEmpty request "type" ≠ ascii text :=
    ne_of_isCallType htype
  rw [RequestAnswer, if_neg (hne (by decide)), if_pos htype, repliesTo, if_neg (hne (by decide)),
    if_neg (hne (by decide)), if_neg (hne (by decide)), if_neg (hne (by decide)), if_pos htype, callReplies]

/-- **What a request is answered.** -/
theorem handleRequest_replies (request : JsonObject) :
    Replies c [] (handleRequest c request) fun ys _ => RequestAnswer request ys := by
  by_cases hcall : isCallType (fieldOrEmpty request "type") = true
  · rw [handleRequest_of_callType hcall, requestAnswer_of_callType hcall]
    exact handleCallRequest_replies request hcall
  by_cases hroom : fieldOrEmpty request "type" = ascii "room_msg"
  · have hanswer : RequestAnswer request = RoomAnswer [.error] := by
      rw [RequestAnswer, if_pos hroom, repliesTo, hroom]
      rfl
    rw [handleRequest_roomMsg hroom, hanswer]
    exact sendRoomMessage_replies _ _
  -- all others are always answered
  have one : ∀ {kinds : List Reply} {p : Handler Unit}, repliesTo request = kinds →
      Replies c [] p (fun ys _ => OneOf kinds ys) → Replies c [] p fun ys _ => RequestAnswer request ys := by
    rintro kinds p rfl h
    rwa [RequestAnswer, if_neg hroom, if_neg hcall]
  by_cases h₁ : fieldOrEmpty request "type" = ascii "login"
  · rw [handleRequest_login h₁]
    exact one (by rw [repliesTo, h₁]; decide) (login_replies _)
  by_cases h₂ : fieldOrEmpty request "type" = ascii "logout"
  · rw [handleRequest_logout h₂]
    exact one (by rw [repliesTo, h₂]; decide) (logout_replies true)
  by_cases h₃ : fieldOrEmpty request "type" = ascii "users"
  · rw [handleRequest_users h₃]
    exact one (by rw [repliesTo, h₃]; decide) sendOnlineUsers_replies
  by_cases h₄ : fieldOrEmpty request "type" = ascii "private"
  · rw [handleRequest_private h₄]
    exact one (by rw [repliesTo, h₄]; decide) (sendPrivate_replies _ _)
  by_cases h₅ : fieldOrEmpty request "type" = ascii "create_room"
  · rw [handleRequest_createRoom h₅]
    exact one (by rw [repliesTo, h₅]; decide) (createRoom_replies _)
  by_cases h₆ : fieldOrEmpty request "type" = ascii "join"
  · rw [handleRequest_join h₆]
    exact one (by rw [repliesTo, h₆]; decide) (joinRoom_replies _)
  by_cases h₇ : fieldOrEmpty request "type" = ascii "leave"
  · rw [handleRequest_leave h₇]
    exact one (by rw [repliesTo, h₇]; decide) (leaveRoom_replies _)
  by_cases h₈ : fieldOrEmpty request "type" = ascii "history_private"
  · rw [handleRequest_historyPrivate h₈]
    exact one (by rw [repliesTo, h₈]; decide) (sendPrivateHistory_replies _ _ _)
  by_cases h₉ : fieldOrEmpty request "type" = ascii "history_room"
  · rw [handleRequest_historyRoom h₉]
    exact one (by rw [repliesTo, h₉]; decide) (sendRoomHistory_replies _ _ _)
  -- a request of no known type
  have hkinds : repliesTo request = [.error] := by
    rw [repliesTo, if_neg h₃, if_neg hroom, if_neg h₈, if_neg h₉, if_neg hcall, if_neg]
    simp only [h₁, h₂, h₄, h₅, h₆, h₇, or_self, not_false_eq_true]
  rw [handleRequest, if_neg h₁, if_neg h₂, if_neg h₃, if_neg h₄, if_neg h₅, if_neg h₆, if_neg h₇, if_neg hroom,
    if_neg h₈, if_neg h₉, if_neg hcall]
  exact one hkinds (replies_sendError rfl _ (by simp))

end

/-- Every handler answers what it has to, on its own connection. -/
theorem server_replies (c : Conn) (input : Input) :
    Replies c [] (server.program c input) fun xs _ => Answers input xs := by
  cases input with
  | connected => exact replies_sendOk rfl _ (by simp)
  | disconnected => exact logout_replies false
  | reaction reaction =>
    cases reaction with
    | dispatch line request => exact handleRequest_replies request
    | parseError line error => exact replies_sendError rfl _ (by simp)
    | fault line => exact rfl
    | tooLarge =>
      exact Prog.Emits.bind ((replies_sendError rfl _ (by simp)).mono fun ys _ hys =>
        replies_call trivial (fun _ => rfl) fun _ => hys)

/-! ### What holds in every run -/

/-- The replies that were sent on connection `k`. -/
def repliesOn (k : Conn) (sent : List Sent) : List Outgoing :=
  (sent.filter fun e => e.connection = k ∧ e.payload.reply?.isSome).map Sent.payload

/-- Only what is sent is a reply. -/
theorem repliesIn_noteOut {op : Op} (hop : ∀ connection payload, op ≠ .send connection payload) (k : Conn)
    (r : op.Response) : repliesIn (noteOut k ⟨op, r⟩) = [] := by
  cases op with
  | send connection payload => exact absurd rfl (hop connection payload)
  | _ => first | rfl | (cases r <;> rfl)

/-- What a connection was replied is what its handlers have replied. -/
theorem repliesOn_of_traced {storage : ChatStorage} {history : History}
    {c : Config Conn Input Op Op.Response ServerState} (h : Traced server (.initial storage) history c)
    (k : Conn) : repliesOn k c.shared.sent = repliesIn (emitted (noteOut k) k history) := by
  induction h with
  | init => rfl
  | @step history c t move c' hrun hmove ih =>
    rw [emitted_concat, repliesIn_append, ← ih]
    cases hmove with
    | @begin i _ _ =>
      have hentered : (enter t i c.shared).sent = c.shared.sent := by cases i <;> rfl
      show repliesOn k (enter t i c.shared).sent = _
      rw [hentered]
      simp [Entry.emits]
    | finish _ => simp [Entry.emits]
    | @act i done op next env hthread =>
      show repliesOn k (exec env op c.shared).2.sent = _
      have hmay : op.RepliesTo t := by
        obtain ⟨i', s', -, hto⟩ := Traced.origin (Q := fun t _ => Op.RepliesTo t)
          (fun t i => (server_replies t i).only) (hrun.step (.act env hthread)) rfl
        exact hto
      rw [sent_exec, repliesOn, List.filter_append, List.map_append]
      congr 1
      by_cases hop : ∃ connection payload, op = .send connection payload
      · obtain ⟨connection, payload, rfl⟩ := hop
        by_cases hreply : payload.reply?.isSome
        · obtain rfl : connection = t := hmay hreply
          by_cases hk : connection = k
          · simp [Op.sends, Entry.emits, noteOut_send, hk, hreply]
          · simp [Op.sends, Entry.emits, hk]
        · by_cases ht : t = k <;> simp [Op.sends, Entry.emits, noteOut_send, hreply]
      · have hno : ∀ connection payload, op ≠ .send connection payload :=
          fun connection payload h => hop ⟨connection, payload, h⟩
        have hsends : op.sends c.shared = [] := by
          cases op with
          | send connection payload => exact absurd rfl (hno connection payload)
          | _ => rfl
        rw [hsends, Entry.emits]
        dsimp only
        split_ifs
        · rw [repliesIn_noteOut hno]
          rfl
        · rfl

/-- **Every request is answered, in order.**  In every run, whatever the interleaving, what the handlers of a
connection have noted falls into as many blocks as it has begun inputs, when it is in no handler, and what was
replied on it is the replies of one block after another: its greeting, and one reply of a right kind to each
request and to each line that is no request.  A room message has no reply if and only if it was saved; a call
request has none only if its operation of `CallManager` succeeded, and if it succeeded and there is a reply
all the same, the other side was offline. -/
theorem requests_are_answered_in_order (storage : ChatStorage) {history : History}
    {c : Config Conn Input Op Op.Response ServerState} (hrun : Traced server (.initial storage) history c)
    {k : Conn} (hidle : c.threads k = none) :
    ∃ blocks : List (List Noted), emitted (noteOut k) k history = blocks.flatten ∧
      repliesOn k c.shared.sent = blocks.flatMap repliesIn ∧
      List.Forall₂ Answers (begun k history) blocks := by
  have hblocks := hrun.emissions k (server_replies k)
  rw [hidle] at hblocks
  obtain ⟨blocks, hnotes, hanswers⟩ := hblocks
  exact ⟨blocks, hnotes, by rw [repliesOn_of_traced hrun, hnotes, repliesIn_flatten], hanswers⟩

/-- Alice has been greeted and has logged in: two replies, to what she has begun. -/
theorem alice_is_answered :
    ∃ history, Traced server (.initial .empty) history (.quiet aliceAndBob) ∧
      (repliesOn 1 aliceAndBob.sent).length = 2 ∧
      ∃ blocks : List (List Noted), emitted (noteOut 1) 1 history = blocks.flatten ∧
        repliesOn 1 aliceAndBob.sent = blocks.flatMap repliesIn ∧
        List.Forall₂ Answers (begun 1 history) blocks := by
  have hquiet : Reachable server (fun _ _ => True) (.initial .empty) (.quiet aliceAndBob) :=
    aliceAndBob_reachable.reachable fun _ _ _ => trivial
  obtain ⟨history, htraced⟩ := hquiet.traced
  exact ⟨history, htraced, by decide +kernel, requests_are_answered_in_order .empty htraced rfl⟩

end ChatService
