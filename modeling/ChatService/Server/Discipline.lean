import ChatService.Server.ChatServer

/-!
# The order in which a handler acts

What the handlers do about one user follows one pattern: a handler first reads the name of its session,
then acts for that user, and a logout takes the user's call, rooms, registration and session name away in
this order.  `Phase` says how far a handler has come, `discipline` which actions are in place then, and
`server_follows` that all handlers keep to it.

The phase of a handler is a function of the actions it has taken and of the answers it got.
-/

namespace ChatService

open AtomicProgram

/-- How far a handler has come. -/
inductive Phase where
  /-- it has read nothing yet, or what it did is over -/
  | quiet
  /-- its session has no name -/
  | anonymous
  /-- its session has this name -/
  | acting (username : Bytes)
  /-- the name is registered for the connection, the session does not have it yet -/
  | loggingIn (username : Bytes)
  /-- in `logout`: the user's call is taken out -/
  | removing (username : Bytes)
  /-- in `logout`: the user's room memberships are taken out, too -/
  | swept (username : Bytes)
  /-- in `logout`: the registration is taken out, too; the session still has the name -/
  | left (username : Bytes)
  /-- in `call_invite`: the call is started, the target is not looked up again yet, or was not found -/
  | inviting (username target callId : Bytes)
deriving DecidableEq

namespace Phase

/-- The name the session is known to have. -/
def user? : Phase → Option Bytes
  | acting username => some username
  | removing username => some username
  | swept username => some username
  | left username => some username
  | inviting username _ _ => some username
  | _ => none

/-- The user's call has been taken out, and the session still has the name. -/
def leaving : Phase → Bool
  | removing _ => true
  | swept _ => true
  | left _ => true
  | _ => false

/-- What an action and its answer make of the phase. -/
def next (phase : Phase) : (op : Op) → op.Response → Phase
  | .username _, name => if name = [] then anonymous else acting name
  | .setUsername _ _, _ => quiet
  | .clearUsername _, _ => quiet
  | .userLogin username _, none => loggingIn username
  | .userLogout username _, _ => left username
  | .userFind _, some _ =>
    match phase with
    | inviting username _ _ => acting username
    | _ => phase
  | .leaveAll username, _ => swept username
  | .startCall caller callee callId, none => inviting caller callee callId
  | .cancelCall caller _ _, _ => acting caller
  | .removeUser username, _ => removing username
  | _, _ => phase

end Phase

/-- Which actions connection `c` may take in a phase. -/
def Op.AllowedIn (c : Conn) (phase : Phase) : Op → Prop
  | username connection => connection = c ∧ phase = .quiet
  | setUsername connection name => connection = c ∧ phase = .loggingIn name
  | clearUsername connection => connection = c ∧ ∃ name, phase = .left name
  | userLogin _ connection => connection = c ∧ phase = .anonymous
  | userLogout name connection => connection = c ∧ phase = .swept name
  | userFind name => ∀ caller callee callId, phase = .inviting caller callee callId → name = callee
  | joinRoom _ name => phase = .acting name
  | leaveRoom _ name => phase = .acting name
  | leaveAll name => phase = .removing name
  | startCall caller callee _ => phase = .acting caller ∧ caller ≠ callee
  | acceptCall callee _ _ => phase = .acting callee
  | rejectCall callee _ _ => phase = .acting callee
  | cancelCall caller callee callId =>
    phase = .acting caller ∨ phase = .inviting caller callee callId
  | timeoutCall caller _ _ => phase = .acting caller
  | hangupCall name _ _ => phase = .acting name
  | removeUser name => phase = .acting name
  | forceClose connection => connection = c
  | _ => True

/-- Between handlers a connection is `quiet`; a handler may also end right after it has read the name,
or with the name still in hand. -/
def discipline : Typestate Conn Op Op.Response Phase where
  resting := .quiet
  next _ := Phase.next
  allowed := Op.AllowedIn
  mayRest phase := phase = .quiet ∨ phase = .anonymous ∨ ∃ username, phase = .acting username

/-! ### The handlers keep to it -/

/-- `c` keeps to the discipline from `phase` on and may rest at the end. -/
def KeepsOrder (c : Conn) (phase : Phase) (p : Handler Unit) : Prop :=
  discipline.Follows c phase p fun phase _ => discipline.mayRest phase

section

variable {c : Conn} {phase : Phase}

theorem mayRest_acting (username : Bytes) : discipline.mayRest (.acting username) :=
  .inr (.inr ⟨username, rfl⟩)

theorem mayRest_quiet : discipline.mayRest .quiet := .inl rfl

theorem mayRest_anonymous : discipline.mayRest .anonymous := .inr (.inl rfl)

/-- Sending does not change the phase. -/
theorem keepsOrder_send (h : discipline.mayRest phase) (connection : Conn) (payload : Outgoing) :
    KeepsOrder c phase (act (.send connection payload)) := ⟨trivial, fun _ => h⟩

theorem keepsOrder_sendJson (h : discipline.mayRest phase) (connection : Conn) (object : JsonObject) :
    KeepsOrder c phase (sendJson connection object) := keepsOrder_send h connection _

/-- Both branches of a test. -/
theorem keepsOrder_ite {q : Prop} [Decidable q] {p₁ p₂ : Handler Unit} (h₁ : KeepsOrder c phase p₁)
    (h₂ : KeepsOrder c phase p₂) : KeepsOrder c phase (if q then p₁ else p₂) := by
  split_ifs
  · exact h₁
  · exact h₂

/-- A handler that begins by asking for the name of its session. -/
theorem keepsOrder_requireLoggedIn {f : Option Bytes → Handler Unit}
    (hnone : KeepsOrder c .anonymous (f none))
    (hsome : ∀ username, KeepsOrder c (.acting username) (f (some username))) :
    KeepsOrder c .quiet (requireLoggedIn c >>= f) := by
  rw [KeepsOrder, discipline.follows_bind, requireLoggedIn, discipline.follows_perform]
  refine ⟨⟨rfl, rfl⟩, fun name => ?_⟩
  show discipline.Follows c (if name = [] then .anonymous else .acting name) _ _
  by_cases hname : name = []
  · rw [if_pos hname, if_pos hname]
    exact ⟨trivial, fun _ => hnone⟩
  · rw [if_neg hname, if_neg hname]
    exact hsome name

theorem login_keepsOrder (username : Bytes) : KeepsOrder c .quiet (login c username) := by
  rw [KeepsOrder, login, discipline.follows_perform]
  refine ⟨⟨rfl, rfl⟩, fun name => ?_⟩
  show discipline.Follows c (if name = [] then .anonymous else .acting name) _ _
  by_cases hname : name = []
  · rw [if_pos hname, if_neg (not_not.mpr hname)]
    refine ⟨⟨rfl, rfl⟩, fun result => ?_⟩
    cases result with
    | some error => exact keepsOrder_sendJson mayRest_anonymous c _
    | none => exact ⟨⟨rfl, rfl⟩, fun _ => keepsOrder_sendJson mayRest_quiet c _⟩
  · rw [if_neg hname, if_pos hname]
    exact keepsOrder_sendJson (mayRest_acting name) c _

theorem leaveCall_keepsOrder (username : Bytes) :
    discipline.Follows c (.acting username) (leaveCall username)
      fun phase _ => phase = .removing username := by
  refine ⟨rfl, fun event => ?_⟩
  cases event with
  | none => exact rfl
  | some callEvent =>
    refine ⟨fun _ _ _ h => absurd h (by simp [discipline, Phase.next]), fun found => ?_⟩
    cases found with
    | none => exact rfl
    | some peerConnection => exact ⟨trivial, fun _ => rfl⟩

theorem logout_keepsOrder (notifyClient : Bool) : KeepsOrder c .quiet (logout c notifyClient) := by
  rw [KeepsOrder, logout, discipline.follows_perform]
  refine ⟨⟨rfl, rfl⟩, fun name => ?_⟩
  show discipline.Follows c (if name = [] then .anonymous else .acting name) _ _
  by_cases hname : name = []
  · rw [if_pos hname, if_pos hname]
    cases notifyClient with
    | true => exact keepsOrder_sendJson mayRest_anonymous c _
    | false => exact mayRest_anonymous
  · rw [if_neg hname, if_neg hname, discipline.follows_bind]
    refine (leaveCall_keepsOrder name).mono discipline fun phase _ hphase => ?_
    subst hphase
    refine ⟨rfl, fun _ => ⟨⟨rfl, rfl⟩, fun _ => ⟨⟨rfl, name, rfl⟩, fun _ => ?_⟩⟩⟩
    cases notifyClient with
    | true => exact keepsOrder_sendJson mayRest_quiet c _
    | false => exact mayRest_quiet

theorem sendPrivate_keepsOrder (target message : Bytes) :
    KeepsOrder c .quiet (sendPrivate c target message) := by
  refine keepsOrder_requireLoggedIn mayRest_anonymous fun username => ?_
  have hrest := mayRest_acting username
  dsimp only
  split_ifs
  · exact keepsOrder_sendJson hrest c _
  · exact keepsOrder_sendJson hrest c _
  · refine ⟨trivial, fun createdAt => ⟨trivial, fun saved => ?_⟩⟩
    cases saved with
    | none => exact keepsOrder_sendJson hrest c _
    | some messageId =>
      refine ⟨fun _ _ _ h => absurd h (by simp [discipline, Phase.next]), fun found => ?_⟩
      cases found with
      | none => exact keepsOrder_sendJson hrest c _
      | some targetConnection => exact ⟨trivial, fun _ => keepsOrder_sendJson hrest c _⟩

theorem answerRoom_keepsOrder (h : discipline.mayRest phase) (success : String)
    (result : Option Bytes) : KeepsOrder c phase (answerRoom c success result) := by
  cases result with
  | none => exact keepsOrder_sendJson h c _
  | some error => exact keepsOrder_sendJson h c _

theorem createRoom_keepsOrder (room : Bytes) : KeepsOrder c .quiet (createRoom c room) :=
  keepsOrder_requireLoggedIn mayRest_anonymous fun username =>
    ⟨trivial, fun result => answerRoom_keepsOrder (mayRest_acting username) _ result⟩

theorem joinRoom_keepsOrder (room : Bytes) : KeepsOrder c .quiet (joinRoom c room) :=
  keepsOrder_requireLoggedIn mayRest_anonymous fun username =>
    ⟨rfl, fun result => answerRoom_keepsOrder (mayRest_acting username) _ result⟩

theorem leaveRoom_keepsOrder (room : Bytes) : KeepsOrder c .quiet (leaveRoom c room) :=
  keepsOrder_requireLoggedIn mayRest_anonymous fun username =>
    ⟨rfl, fun result => answerRoom_keepsOrder (mayRest_acting username) _ result⟩

theorem sendOnlineUsers_keepsOrder : KeepsOrder c .quiet (sendOnlineUsers c) :=
  ⟨trivial, fun _ => keepsOrder_sendJson mayRest_quiet c _⟩

theorem sendToAll_keepsOrder (h : discipline.mayRest phase) (payload : Outgoing)
    (connections : List Conn) : KeepsOrder c phase (sendToAll payload connections) := by
  induction connections with
  | nil => exact h
  | cons connection connections ih => exact ⟨trivial, fun _ => ih⟩

theorem sendRoomMessage_keepsOrder (room message : Bytes) :
    KeepsOrder c .quiet (sendRoomMessage c room message) := by
  refine keepsOrder_requireLoggedIn mayRest_anonymous fun username => ?_
  have hrest := mayRest_acting username
  dsimp only
  split_ifs
  · exact keepsOrder_sendJson hrest c _
  · refine ⟨trivial, fun members => ?_⟩
    cases members with
    | error error => exact keepsOrder_sendJson hrest c _
    | ok members =>
      refine ⟨trivial, fun createdAt => ⟨trivial, fun saved => ?_⟩⟩
      cases saved with
      | none => exact keepsOrder_sendJson hrest c _
      | some messageId => exact ⟨trivial, fun _ => sendToAll_keepsOrder hrest _ _⟩

theorem sendPrivateHistory_keepsOrder (peer limitText before : Bytes) :
    KeepsOrder c .quiet (sendPrivateHistory c peer limitText before) := by
  refine keepsOrder_requireLoggedIn mayRest_anonymous fun username => ?_
  have hrest := mayRest_acting username
  dsimp only
  split_ifs
  · exact keepsOrder_sendJson hrest c _
  · exact ⟨trivial, fun _ => keepsOrder_send hrest c _⟩

theorem sendRoomHistory_keepsOrder (room limitText before : Bytes) :
    KeepsOrder c .quiet (sendRoomHistory c room limitText before) := by
  refine keepsOrder_requireLoggedIn mayRest_anonymous fun username => ?_
  have hrest := mayRest_acting username
  dsimp only
  split_ifs
  · exact keepsOrder_sendJson hrest c _
  · exact ⟨trivial, fun _ => keepsOrder_send hrest c _⟩

/-! ### The call requests -/

variable {username target callId : Bytes}

theorem handleInvite_keepsOrder (request : JsonObject) (hne : username ≠ target) :
    KeepsOrder c (.acting username) (handleInvite c request username target callId) := by
  have hrest := mayRest_acting username
  rw [handleInvite]
  split_ifs
  · exact keepsOrder_sendJson hrest c _
  refine ⟨fun _ _ _ h => absurd h (by simp), fun found => ?_⟩
  cases found with
  | none => exact keepsOrder_sendJson hrest c _
  | some targetConnection =>
    show discipline.Follows c _ (act (.startCall username target callId) >>= _) _
    rw [discipline.follows_perform]
    refine ⟨⟨rfl, hne⟩, fun started => ?_⟩
    cases started with
    | some reason =>
      dsimp only
      split_ifs
      · exact keepsOrder_sendJson hrest c _
      · exact keepsOrder_sendJson hrest c _
    | none =>
      refine ⟨fun _ _ _ h => ?_, fun found => ?_⟩
      · obtain ⟨-, h, -⟩ : username = _ ∧ target = _ ∧ callId = _ := by
          simpa [discipline, Phase.next] using h
        exact h
      · cases found with
        | none => exact ⟨.inr rfl, fun _ => keepsOrder_sendJson hrest c _⟩
        | some targetConnection => exact keepsOrder_send hrest _ _

theorem handleSignaling_keepsOrder (request : JsonObject) (type : Bytes) :
    KeepsOrder c (.acting username) (handleSignaling c request type username target callId) := by
  have hrest := mayRest_acting username
  rw [handleSignaling]
  split_ifs
  · exact keepsOrder_sendJson hrest c _
  refine ⟨trivial, fun valid => ?_⟩
  cases valid with
  | some reason => exact keepsOrder_sendJson hrest c _
  | none =>
    refine ⟨fun _ _ _ h => absurd h (by simp [discipline, Phase.next]), fun found => ?_⟩
    cases found with
    | none => exact ⟨rfl, fun _ => keepsOrder_sendJson hrest c _⟩
    | some targetConnection => exact keepsOrder_send hrest _ _

/-- Whatever the request asks of the manager, the handler still acts for the same user afterwards. -/
theorem callOperation_keepsOrder (type : Bytes) :
    discipline.Follows c (.acting username) (callOperation type username target callId)
      fun phase _ => phase = .acting username := by
  rw [callOperation]
  split_ifs
  · exact ⟨rfl, fun _ => rfl⟩
  · exact ⟨rfl, fun _ => rfl⟩
  · exact ⟨.inl rfl, fun _ => rfl⟩
  · exact ⟨rfl, fun _ => rfl⟩
  · exact ⟨rfl, fun _ => rfl⟩
  · exact rfl

theorem handleCallAction_keepsOrder (request : JsonObject) (type : Bytes) :
    KeepsOrder c (.acting username) (handleCallAction c request type username target callId) := by
  have hrest := mayRest_acting username
  show discipline.Follows c _ (callOperation type username target callId >>= _) _
  rw [discipline.follows_bind]
  refine (callOperation_keepsOrder type).mono discipline fun phase result hphase => ?_
  subst hphase
  cases result with
  | some reason => exact keepsOrder_sendJson hrest c _
  | none =>
    refine ⟨fun _ _ _ h => absurd h (by simp), fun found => ?_⟩
    cases found with
    | some targetConnection => exact keepsOrder_send hrest _ _
    | none =>
      dsimp only
      split_ifs
      · exact ⟨rfl, fun _ => keepsOrder_sendJson hrest c _⟩
      · exact hrest

theorem handleCallRequest_keepsOrder (request : JsonObject) :
    KeepsOrder c .quiet (handleCallRequest c request) := by
  refine keepsOrder_requireLoggedIn mayRest_anonymous fun username => ?_
  have hrest := mayRest_acting username
  dsimp only
  split_ifs with _ _ hself
  · exact keepsOrder_sendJson hrest c _
  · exact keepsOrder_sendJson hrest c _
  · exact keepsOrder_sendJson hrest c _
  · exact handleInvite_keepsOrder request (Ne.symm hself)
  · exact handleSignaling_keepsOrder request _
  · exact handleCallAction_keepsOrder request _

theorem handleRequest_keepsOrder (request : JsonObject) :
    KeepsOrder c .quiet (handleRequest c request) := by
  rw [handleRequest]
  refine keepsOrder_ite (login_keepsOrder _) ?_
  refine keepsOrder_ite (logout_keepsOrder true) ?_
  refine keepsOrder_ite sendOnlineUsers_keepsOrder ?_
  refine keepsOrder_ite (sendPrivate_keepsOrder _ _) ?_
  refine keepsOrder_ite (createRoom_keepsOrder _) ?_
  refine keepsOrder_ite (joinRoom_keepsOrder _) ?_
  refine keepsOrder_ite (leaveRoom_keepsOrder _) ?_
  refine keepsOrder_ite (sendRoomMessage_keepsOrder _ _) ?_
  refine keepsOrder_ite (sendPrivateHistory_keepsOrder _ _ _) ?_
  refine keepsOrder_ite (sendRoomHistory_keepsOrder _ _ _) ?_
  refine keepsOrder_ite (handleCallRequest_keepsOrder request) ?_
  exact keepsOrder_sendJson mayRest_quiet c _

end

/-- **Every handler keeps to the discipline.** -/
theorem server_follows (c : Conn) (input : Input) :
    discipline.Follows c discipline.resting (server.program c input)
      fun phase _ => discipline.mayRest phase := by
  cases input with
  | connected => exact keepsOrder_sendJson mayRest_quiet c _
  | disconnected => exact logout_keepsOrder false
  | reaction reaction =>
    cases reaction with
    | dispatch line request => exact handleRequest_keepsOrder request
    | parseError line error => exact keepsOrder_sendJson mayRest_quiet c _
    | fault line => exact mayRest_quiet
    | tooLarge => exact ⟨trivial, fun _ => ⟨rfl, fun _ => mayRest_quiet⟩⟩

end ChatService
