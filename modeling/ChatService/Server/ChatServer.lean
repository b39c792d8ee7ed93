import ChatService.Server.ServerState

/-!
# The handlers of `ChatServer` and `ChatSession::handleRequest`

Each handler issues the actions of the source in the order of the source.  `server` is the machine in
which the handlers of one connection follow each other and those of different connections interleave;
a connection begins with `connectEstablished`, ends with `handleClose`, and in between reacts to lines.
-/

namespace ChatService

open AtomicProgram Byte

/-- `ChatSession::sendJson`. -/
def sendJson (session : Conn) (object : JsonObject) : Handler Unit :=
  act (.send session (.json object))

def sendError (session : Conn) (message : Bytes) : Handler Unit :=
  sendJson session (makeErrorResponse message)

def requireLoggedIn (session : Conn) : Handler (Option Bytes) := do
  let username ← act (.username session)
  if username = [] then
    sendError session (ascii "login required")
    pure none
  else pure (some username)

/-! ### Login and logout -/

def login (session : Conn) (username : Bytes) : Handler Unit := do
  let current ← act (.username session)
  if current ≠ [] then sendError session (ascii "session is already logged in")
  else
    match ← act (.userLogin username session) with
    | some error => sendError session error
    | none =>
      act (.setUsername session username)
      sendJson session (makeOkResponse (ascii "logged in as " ++ username))

/-- How the end of a call by a logout is announced to the peer. -/
def disconnectType (state : CallUserState) : Bytes :=
  if state = .calling then ascii "call_cancel"
  else if state = .ringing then ascii "call_reject"
  else ascii "call_hangup"

/-- The first part of `logout`: the user's call ends, and the peer is told. -/
def leaveCall (username : Bytes) : Handler Unit := do
  match ← act (.removeUser username) with
  | none => pure ()
  | some callEvent =>
    match ← act (.userFind callEvent.peer) with
    | none => pure ()
    | some peerConnection =>
      act (.send peerConnection (.json (makeCallEvent
        (disconnectType callEvent.disconnectedState) username callEvent.peer callEvent.callId
        (ascii "peer_disconnected"))))

def logout (session : Conn) (notifyClient : Bool) : Handler Unit := do
  let username ← act (.username session)
  if username = [] then
    if notifyClient then sendError session (ascii "session is not logged in") else pure ()
  else
    leaveCall username
    act (.leaveAll username)
    act (.userLogout username session)
    act (.clearUsername session)
    if notifyClient then sendJson session (makeOkResponse (ascii "logged out")) else pure ()

/-! ### Messages and rooms -/

def sendOnlineUsers (session : Conn) : Handler Unit := do
  let users ← act .onlineUsers
  sendJson session (usersResponse users)

def sendPrivate (session : Conn) (target message : Bytes) : Handler Unit := do
  match ← requireLoggedIn session with
  | none => pure ()
  | some username =>
    if isValidName target = false then sendError session (ascii "invalid target username")
    else if message = [] then sendError session (ascii "message cannot be empty")
    else
      let createdAt ← act .currentTimeSeconds
      match ← act (.savePrivateMessage username target message createdAt) with
      | none => sendError session (ascii "failed to save private message")
      | some messageId =>
        match ← act (.userFind target) with
        | some targetConnection =>
          act (.send targetConnection
            (.json (privateEvent username message messageId createdAt)))
          sendJson session
            (privateResponse (ascii "private message sent") target messageId createdAt)
        | none =>
          sendJson session
            (privateResponse (ascii "private message saved") target messageId createdAt)

/-- The answer to an operation on a room: its error, or `success`. -/
def answerRoom (session : Conn) (success : String) : Option Bytes → Handler Unit
  | some error => sendError session error
  | none => sendJson session (makeOkResponse (ascii success))

def createRoom (session : Conn) (room : Bytes) : Handler Unit := do
  match ← requireLoggedIn session with
  | none => pure ()
  | some _ => answerRoom session "room created" (← act (.createRoom room))

def joinRoom (session : Conn) (room : Bytes) : Handler Unit := do
  match ← requireLoggedIn session with
  | none => pure ()
  | some username => answerRoom session "joined room" (← act (.joinRoom room username))

def leaveRoom (session : Conn) (room : Bytes) : Handler Unit := do
  match ← requireLoggedIn session with
  | none => pure ()
  | some username => answerRoom session "left room" (← act (.leaveRoom room username))

/-- The loop over the connections of the members. -/
def sendToAll (payload : Outgoing) : List Conn → Handler Unit
  | [] => pure ()
  | connection :: connections => do
    act (.send connection payload)
    sendToAll payload connections

def sendRoomMessage (session : Conn) (room message : Bytes) : Handler Unit := do
  match ← requireLoggedIn session with
  | none => pure ()
  | some username =>
    if message = [] then sendError session (ascii "message cannot be empty")
    else
      match ← act (.membersForMessage room username) with
      | .error error => sendError session error
      | .ok members =>
        let createdAt ← act .currentTimeSeconds
        match ← act (.saveRoomMessage room username message createdAt) with
        | none => sendError session (ascii "failed to save room message")
        | some messageId =>
          let connections ← act (.userFindMany members)
          sendToAll (.json (roomEvent room username message messageId createdAt)) connections

def sendPrivateHistory (session : Conn) (peer limitText beforeText : Bytes) : Handler Unit := do
  match ← requireLoggedIn session with
  | none => pure ()
  | some username =>
    if isValidName peer = false then sendError session (ascii "invalid peer username")
    else
      let messages ← act (.loadPrivateHistory username peer (parseHistoryLimit limitText)
        (parseBeforeTimestamp beforeText))
      act (.send session (.privateHistory peer messages))

def sendRoomHistory (session : Conn) (room limitText beforeText : Bytes) : Handler Unit := do
  match ← requireLoggedIn session with
  | none => pure ()
  | some _ =>
    if isValidName room = false then sendError session (ascii "invalid room name")
    else
      let messages ← act (.loadRoomHistory room (parseHistoryLimit limitText)
        (parseBeforeTimestamp beforeText))
      act (.send session (.roomHistory room messages))

/-! ### Calls -/

def sendCallError (session : Conn) (username callId reason : Bytes) : Handler Unit :=
  sendJson session (makeCallError username callId reason)

/-- `call_invite`: the target is looked up, both users are reserved, and the target is looked up once
more, since it may have left in between. -/
def handleInvite (session : Conn) (request : JsonObject) (username target callId : Bytes) :
    Handler Unit := do
  if fieldOrEmpty request "media" ≠ ascii "video" then
    sendCallError session username callId (ascii "unsupported_media")
  else
    match ← act (.userFind target) with
    | none => sendCallError session username callId (ascii "target_offline")
    | some _ =>
      match ← act (.startCall username target callId) with
      | some reason =>
        if reason = ascii "caller_busy" ∨ reason = ascii "target_busy" then
          sendJson session (makeCallBusy username callId reason)
        else sendCallError session username callId reason
      | none =>
        match ← act (.userFind target) with
        | none =>
          let _ ← act (.cancelCall username target callId)
          sendCallError session username callId (ascii "target_offline")
        | some targetConnection =>
          act (.send targetConnection (.json
            ((makeCallEvent (ascii "call_invite") username target callId []).insert (ascii "media")
              (ascii "video"))))

/-- `webrtc_offer`, `webrtc_answer`, `ice_candidate`. -/
def isSignalingType (type : Bytes) : Bool :=
  type = ascii "webrtc_offer" ∨ type = ascii "webrtc_answer" ∨ type = ascii "ice_candidate"

/-- The field that carries the payload of a signaling request. -/
def payloadName (type : Bytes) : String := if type = ascii "ice_candidate" then "candidate" else "sdp"

def handleSignaling (session : Conn) (request : JsonObject) (type username target callId : Bytes) :
    Handler Unit := do
  let rawPayload := fieldOrEmpty request (payloadName type)
  if rawPayload.head? ≠ some lbrace then
    sendCallError session username callId (ascii "invalid_signaling_payload")
  else
    match ← act (.validateSignaling username target callId type) with
    | some reason => sendCallError session username callId reason
    | none =>
      match ← act (.userFind target) with
      | none =>
        let _ ← act (.hangupCall username target callId)
        sendCallError session username callId (ascii "target_offline")
      | some targetConnection =>
        act (.send targetConnection
          (.signaling type username target callId (ascii (payloadName type)) rawPayload))

/-- The manager operation that a call request asks for.  No other type comes here; one that did would be
refused without a reason. -/
def callOperation (type username target callId : Bytes) : Handler (Option Bytes) :=
  if type = ascii "call_accept" then act (.acceptCall username target callId)
  else if type = ascii "call_reject" then act (.rejectCall username target callId)
  else if type = ascii "call_cancel" then act (.cancelCall username target callId)
  else if type = ascii "call_timeout" then act (.timeoutCall username target callId)
  else if type = ascii "call_hangup" then act (.hangupCall username target callId)
  else pure (some [])

/-- The reason that goes into the event. -/
def eventReason (type : Bytes) (request : JsonObject) : Bytes :=
  if type = ascii "call_reject" then
    if fieldOrEmpty request "reason" = [] then ascii "rejected" else fieldOrEmpty request "reason"
  else if type = ascii "call_timeout" then ascii "timeout"
  else []

/-- The requests that change the state of a call. -/
def handleCallAction (session : Conn) (request : JsonObject) (type username target callId : Bytes) :
    Handler Unit := do
  match ← callOperation type username target callId with
  | some reason => sendCallError session username callId reason
  | none =>
    match ← act (.userFind target) with
    | some targetConnection =>
      act (.send targetConnection (.json
        (makeCallEvent type username target callId (eventReason type request))))
    | none =>
      if type = ascii "call_accept" then
        let _ ← act (.hangupCall username target callId)
        sendCallError session username callId (ascii "target_offline")
      else pure ()

def handleCallRequest (session : Conn) (request : JsonObject) : Handler Unit := do
  match ← requireLoggedIn session with
  | none => pure ()
  | some username =>
    let type := fieldOrEmpty request "type"
    let target := fieldOrEmpty request "to"
    let callId := fieldOrEmpty request "call_id"
    if isValidName target = false then
      sendCallError session username callId (ascii "invalid_target")
    else if isValidCallId callId = false then
      sendCallError session username callId (ascii "invalid_call_id")
    else if target = username then
      sendCallError session username callId (ascii "cannot_call_self")
    else if type = ascii "call_invite" then handleInvite session request username target callId
    else if isSignalingType type then handleSignaling session request type username target callId
    else handleCallAction session request type username target callId

/-! ### Dispatch -/

def isCallType (type : Bytes) : Bool :=
  type = ascii "call_invite" ∨ type = ascii "call_accept" ∨ type = ascii "call_reject" ∨
    type = ascii "call_cancel" ∨ type = ascii "call_hangup" ∨ type = ascii "call_timeout" ∨
    isSignalingType type

/-- The first of the three spellings of `before` that is not empty. -/
def beforeText (request : JsonObject) : Bytes :=
  if fieldOrEmpty request "before" ≠ [] then fieldOrEmpty request "before"
  else if fieldOrEmpty request "before_timestamp" ≠ [] then fieldOrEmpty request "before_timestamp"
  else fieldOrEmpty request "beforeTimestamp"

/-- `ChatSession::handleRequest`. -/
def handleRequest (session : Conn) (request : JsonObject) : Handler Unit :=
  let type := fieldOrEmpty request "type"
  if type = ascii "login" then login session (fieldOrEmpty request "username")
  else if type = ascii "logout" then logout session true
  else if type = ascii "users" then sendOnlineUsers session
  else if type = ascii "private" then
    sendPrivate session (fieldOrEmpty request "target") (fieldOrEmpty request "message")
  else if type = ascii "create_room" then createRoom session (fieldOrEmpty request "room")
  else if type = ascii "join" then joinRoom session (fieldOrEmpty request "room")
  else if type = ascii "leave" then leaveRoom session (fieldOrEmpty request "room")
  else if type = ascii "room_msg" then
    sendRoomMessage session (fieldOrEmpty request "room") (fieldOrEmpty request "message")
  else if type = ascii "history_private" then
    sendPrivateHistory session (fieldOrEmpty request "peer") (fieldOrEmpty request "limit")
      (beforeText request)
  else if type = ascii "history_room" then
    sendRoomHistory session (fieldOrEmpty request "room") (fieldOrEmpty request "limit")
      (beforeText request)
  else if isCallType type then handleCallRequest session request
  else sendError session (ascii "unknown request type")

section

variable {session : Conn} {request : JsonObject}

theorem handleRequest_login (h : fieldOrEmpty request "type" = ascii "login") :
    handleRequest session request = login session (fieldOrEmpty request "username") := by
  rw [handleRequest, h, if_pos rfl]

theorem handleRequest_logout (h : fieldOrEmpty request "type" = ascii "logout") :
    handleRequest session request = logout session true := by
  rw [handleRequest, h, if_neg (by decide), if_pos rfl]

theorem handleRequest_users (h : fieldOrEmpty request "type" = ascii "users") :
    handleRequest session request = sendOnlineUsers session := by
  rw [handleRequest, h]
  rw [if_neg (by decide), if_neg (by decide), if_pos rfl]

theorem handleRequest_private (h : fieldOrEmpty request "type" = ascii "private") :
    handleRequest session request =
      sendPrivate session (fieldOrEmpty request "target") (fieldOrEmpty request "message") := by
  rw [handleRequest, h]
  rw [if_neg (by decide), if_neg (by decide), if_neg (by decide), if_pos rfl]

theorem handleRequest_createRoom (h : fieldOrEmpty request "type" = ascii "create_room") :
    handleRequest session request = createRoom session (fieldOrEmpty request "room") := by
  rw [handleRequest, h]
  rw [if_neg (by decide), if_neg (by decide), if_neg (by decide), if_neg (by decide), if_pos rfl]

theorem handleRequest_join (h : fieldOrEmpty request "type" = ascii "join") :
    handleRequest session request = joinRoom session (fieldOrEmpty request "room") := by
  rw [handleRequest, h]
  rw [if_neg (by decide), if_neg (by decide), if_neg (by decide), if_neg (by decide), if_neg (by decide),
    if_pos rfl]

theorem handleRequest_leave (h : fieldOrEmpty request "type" = ascii "leave") :
    handleRequest session request = leaveRoom session (fieldOrEmpty request "room") := by
  rw [handleRequest, h]
  rw [if_neg (by decide), if_neg (by decide), if_neg (by decide), if_neg (by decide), if_neg (by decide),
    if_neg (by decide), if_pos rfl]

theorem handleRequest_roomMsg (h : fieldOrEmpty request "type" = ascii "room_msg") :
    handleRequest session request =
      sendRoomMessage session (fieldOrEmpty request "room") (fieldOrEmpty request "message") := by
  rw [handleRequest, h]
  rw [if_neg (by decide), if_neg (by decide), if_neg (by decide), if_neg (by decide), if_neg (by decide),
    if_neg (by decide), if_neg (by decide), if_pos rfl]

theorem handleRequest_historyPrivate (h : fieldOrEmpty request "type" = ascii "history_private") :
    handleRequest session request = sendPrivateHistory session (fieldOrEmpty request "peer")
      (fieldOrEmpty request "limit") (beforeText request) := by
  rw [handleRequest, h]
  rw [if_neg (by decide), if_neg (by decide), if_neg (by decide), if_neg (by decide), if_neg (by decide),
    if_neg (by decide), if_neg (by decide), if_neg (by decide), if_pos rfl]

theorem handleRequest_historyRoom (h : fieldOrEmpty request "type" = ascii "history_room") :
    handleRequest session request = sendRoomHistory session (fieldOrEmpty request "room")
      (fieldOrEmpty request "limit") (beforeText request) := by
  rw [handleRequest, h]
  rw [if_neg (by decide), if_neg (by decide), if_neg (by decide), if_neg (by decide), if_neg (by decide),
    if_neg (by decide), if_neg (by decide), if_neg (by decide), if_neg (by decide), if_pos rfl]

/-- A call type is none of the other types. -/
theorem ne_of_isCallType {type : Bytes} (htype : isCallType type = true) {text : String}
    (htext : isCallType (ascii text) = false) : type ≠ ascii text := by
  rintro rfl
  rw [htext] at htype
  exact absurd htype (by simp)

theorem handleRequest_of_callType (h : isCallType (fieldOrEmpty request "type") = true) :
    handleRequest session request = handleCallRequest session request := by
  have hne : ∀ {text}, isCallType (ascii text) = false → fieldOrEmpty request "type" ≠ ascii text :=
    ne_of_isCallType h
  rw [handleRequest, if_neg (hne (by decide)), if_neg (hne (by decide)), if_neg (hne (by decide)),
    if_neg (hne (by decide)), if_neg (hne (by decide)), if_neg (hne (by decide)), if_neg (hne (by decide)),
    if_neg (hne (by decide)), if_neg (hne (by decide)), if_neg (hne (by decide)), if_pos h]

end

/-! ### Connections -/

/-- What happens on a connection: it is established, a line (or the buffer) is reacted to, it is
closed. -/
inductive Input where
  | connected
  | reaction (reaction : Reaction)
  | disconnected
deriving DecidableEq

/-- `onMessage` for one reaction. -/
def onReaction (connection : Conn) : Reaction → Handler Unit
  | .dispatch _ request => handleRequest connection request
  | .parseError _ error => sendError connection (ascii "invalid json: " ++ error)
  | .fault _ => pure ()
  | .tooLarge => do
    sendError connection (ascii "request line is too large")
    act (.forceClose connection)

/-- `onConnection` and `onMessage`. -/
def onInput (connection : Conn) : Input → Handler Unit
  | .connected => sendJson connection (makeOkResponse (ascii "connected"))
  | .reaction reaction => onReaction connection reaction
  | .disconnected => logout connection false

/-- A reaction comes from a line without a newline, or from a buffer without one. -/
def Reaction.Possible (reaction : Reaction) : Prop :=
  reaction = .tooLarge ∨ ∃ line, newline ∉ line ∧ reaction ∈ onLine line

/-- A connection is established once, reacts while it is connected, and is closed once. -/
def admits (s : ServerState) (connection : Conn) : Input → Prop
  | .connected => (s.connections connection).tcpState = .kConnecting
  | .reaction reaction =>
    (s.connections connection).tcpState = .kConnected ∧ reaction.Possible
  | .disconnected =>
    (s.connections connection).tcpState = .kConnected ∨
      (s.connections connection).tcpState = .kDisconnecting

/-- The state of the socket when the handler begins. -/
def enter (connection : Conn) : Input → ServerState → ServerState
  | .connected, s => s.withTcpState connection .kConnected
  | .reaction _, s => s
  | .disconnected, s => s.withTcpState connection .kDisconnected

/-- The server as a machine: handlers of different connections interleave action by action. -/
def server : Machine Conn Input Op Op.Response ServerState Env where
  exec := exec
  program := onInput
  admits := admits
  enter := enter

/-- The request that a client writes with `makeJsonLine`. -/
def Input.request (object : JsonObject) : Input :=
  .reaction (.dispatch (serializeJsonObject object) object)

theorem admits_connected {s : ServerState} {connection : Conn}
    (h : (s.connections connection).tcpState = .kConnecting) : admits s connection .connected := h

theorem admits_request {s : ServerState} {connection : Conn}
    (h : (s.connections connection).tcpState = .kConnected) (object : JsonObject) :
    admits s connection (.request object) :=
  ⟨h, .inr ⟨serializeJsonObject object, newline_not_mem_serializeJsonObject object, by
    rw [onLine_serializeJsonObject]
    exact List.mem_singleton_self _⟩⟩

/-- A handler that runs without interruption. -/
def serve1 (env : Env) (connection : Conn) (input : Input) (s : ServerState) : ServerState :=
  ((onInput connection input).run exec env (enter connection input s)).2

/-- The actions of such a handler. -/
def actions (env : Env) (connection : Conn) (input : Input) (s : ServerState) :
    List (ServerState × Event Op Op.Response) :=
  (onInput connection input).log exec env (enter connection input s)

theorem Recorded.serve1 {s₀ s : ServerState} {log : List (ServerState × Event Op Op.Response)}
    (h : Recorded server s₀ log s) {env : Env} {connection : Conn} {input : Input}
    (hadmits : admits s connection input) :
    Recorded server s₀ (log ++ actions env connection input s) (serve1 env connection input s) :=
  h.run connection input env hadmits

theorem Serial.serve1 {s₀ s : ServerState} (h : Serial server s₀ s) {env : Env} {connection : Conn}
    {input : Input} (hadmits : admits s connection input) :
    Serial server s₀ (serve1 env connection input s) :=
  h.run connection input env hadmits

end ChatService
