import ChatService.Server.ChatServer
import ChatService.Server.Conversations

/-!
# How messages are delivered

The second order that the handlers keep: which message a handler is about to send, and to whom.  A room
message goes through a snapshot of the members, a save, a lookup of the connections and one `send` for each
connection; a private message through a save and at most one event; a history page is what the storage has
loaded.  `Delivery` says how far a handler has come with this, `delivery` which actions are in place then,
and `server_delivers` that all handlers keep to it.
-/

namespace ChatService

open AtomicProgram

/-- The event that tells of a saved message. -/
def Save.event (id : ℤ) : Save → Outgoing
  | privateMessage sender _ content timestamp => .json (privateEvent sender content id timestamp)
  | roomMessage room sender content timestamp => .json (roomEvent room sender content id timestamp)

def Save.sender : Save → Bytes
  | privateMessage sender _ _ _ => sender
  | roomMessage _ sender _ _ => sender

def Save.content : Save → Bytes
  | privateMessage _ _ content _ => content
  | roomMessage _ _ content _ => content

/-- The line tells of no message. -/
def Outgoing.Plain : Outgoing → Prop
  | json object =>
    fieldOrEmpty object "type" ≠ ascii "private" ∧ fieldOrEmpty object "type" ≠ ascii "room"
  | signaling _ _ _ _ _ _ => True
  | privateHistory _ _ => False
  | roomHistory _ _ => False

/-- How far a handler has come with a message. -/
inductive Delivery where
  /-- it has none in hand -/
  | idle
  /-- it has read the name of its session -/
  | named (username : Bytes)
  /-- it has the members of the room -/
  | listed (room username : Bytes) (members : List Bytes)
  /-- the room message is saved -/
  | savedRoom (id : ℤ) (save : Save) (members : List Bytes)
  /-- the event is still to be sent on these connections -/
  | sending (id : ℤ) (save : Save) (remaining : List Conn)
  /-- the private message is saved -/
  | savedPrivate (id : ℤ) (save : Save)
  /-- a page is loaded -/
  | loaded (messages : List Message)

namespace Delivery

/-- What an action and its answer make of it. -/
def next (phase : Delivery) : (op : Op) → op.Response → Delivery
  | .username _, name => if name = [] then idle else named name
  | .membersForMessage room username, .ok members => listed room username members
  | .currentTimeSeconds, _ => phase
  | .userFind _, _ => phase
  | .savePrivateMessage sender receiver content timestamp, some id =>
    savedPrivate id (.privateMessage sender receiver content timestamp)
  | .saveRoomMessage room sender content timestamp, some id =>
    match phase with
    | listed _ _ members => savedRoom id (.roomMessage room sender content timestamp) members
    | _ => idle
  | .userFindMany _, connections =>
    match phase with
    | savedRoom id save _ => sending id save connections
    | _ => idle
  | .loadPrivateHistory _ _ _ _, messages => loaded messages
  | .loadRoomHistory _ _ _, messages => loaded messages
  | .send _ _, _ =>
    match phase with
    | sending id save remaining => sending id save remaining.tail
    | loaded _ => idle
    | _ => phase
  | _, _ => idle

/-- What may be sent to whom. -/
def MaySend (connection : Conn) (payload : Outgoing) : Delivery → Prop
  | idle => payload.Plain
  | named _ => payload.Plain
  | sending id save remaining => remaining.head? = some connection ∧ payload = save.event id
  | savedPrivate id save => payload = save.event id ∨ payload.Plain
  | loaded messages => ∃ name, payload = .privateHistory name messages ∨ payload = .roomHistory name messages
  | _ => False

/-- The handler has no message in hand. -/
def Free : Delivery → Prop
  | idle => True
  | named _ => True
  | _ => False

/-- Where a handler may end: every event has been sent. -/
def Done : Delivery → Prop
  | idle => True
  | named _ => True
  | sending _ _ remaining => remaining = []
  | savedPrivate _ _ => True
  | _ => False

theorem Free.done {phase : Delivery} (h : phase.Free) : phase.Done := by
  cases phase with
  | idle => trivial
  | named username => trivial
  | _ => exact h.elim

end Delivery

/-- Which actions connection `c` may take. -/
def Op.DeliveredIn (c : Conn) (phase : Delivery) : Op → Prop
  | .username connection => connection = c ∧ phase = .idle
  | .membersForMessage _ name => phase = .named name
  | .currentTimeSeconds => True
  | .userFind _ => True
  | .savePrivateMessage sender _ _ _ => phase = .named sender
  | .saveRoomMessage room sender _ _ => ∃ members, phase = .listed room sender members
  | .userFindMany usernames => ∃ id save, phase = .savedRoom id save usernames
  | .send connection payload => phase.MaySend connection payload
  | _ => phase.Free

def delivery : Typestate Conn Op Op.Response Delivery where
  resting := .idle
  next _ := Delivery.next
  allowed := Op.DeliveredIn
  mayRest := Delivery.Done

/-! ### The handlers keep to it -/

/-- `c` delivers what it has from `phase` on. -/
def DeliversAll (c : Conn) (phase : Delivery) (p : Handler Unit) : Prop :=
  delivery.Follows c phase p fun phase _ => phase.Done

/-- The actions that have nothing to do with messages. -/
def Op.Aside : Op → Prop
  | .username _ => False
  | .membersForMessage _ _ => False
  | .savePrivateMessage _ _ _ _ => False
  | .saveRoomMessage _ _ _ _ => False
  | .userFindMany _ => False
  | .loadPrivateHistory _ _ _ _ => False
  | .loadRoomHistory _ _ _ => False
  | .send _ payload => payload.Plain
  | _ => True

/-- They are in place where no message is in hand, and none is in hand afterwards. -/
theorem Op.Aside.delivered {op : Op} (h : op.Aside) {phase : Delivery} (hfree : phase.Free) (c : Conn) :
    op.DeliveredIn c phase ∧ ∀ r, (phase.next op r).Free := by
  cases op with
  | send connection payload =>
    cases phase with
    | idle => exact ⟨h, fun _ => trivial⟩
    | named username => exact ⟨h, fun _ => trivial⟩
    | _ => exact hfree.elim
  | username connection => exact h.elim
  | membersForMessage room username => exact h.elim
  | savePrivateMessage sender receiver content timestamp => exact h.elim
  | saveRoomMessage room sender content timestamp => exact h.elim
  | userFindMany usernames => exact h.elim
  | loadPrivateHistory a b limit before => exact h.elim
  | loadRoomHistory room limit before => exact h.elim
  | currentTimeSeconds => exact ⟨trivial, fun _ => hfree⟩
  | userFind username => exact ⟨trivial, fun _ => hfree⟩
  | _ => exact ⟨hfree, fun _ => trivial⟩

section

variable {c : Conn} {phase : Delivery}

/-- A handler that takes such actions only. -/
theorem delivers_of_only {p : Handler Unit} (h : p.Only Op.Aside) (hfree : phase.Free) :
    DeliversAll c phase p := by
  induction p generalizing phase with
  | ret a => exact hfree.done
  | call op next ih =>
    obtain ⟨hallowed, hnext⟩ := h.1.delivered hfree c
    exact ⟨hallowed, fun r => ih r (h.2 r) (hnext r)⟩

/-! What plain lines are sent. -/

theorem plain_error (message : Bytes) : (Outgoing.json (makeErrorResponse message)).Plain := by
  rw [Outgoing.Plain, type_makeErrorResponse]
  decide

theorem plain_ok (message : Bytes) : (Outgoing.json (makeOkResponse message)).Plain := by
  rw [Outgoing.Plain, type_makeOkResponse]
  decide

theorem plain_callError (username callId reason : Bytes) :
    (Outgoing.json (makeCallError username callId reason)).Plain := by
  rw [Outgoing.Plain, makeCallError, type_makeCallReply]
  decide

theorem plain_callBusy (username callId reason : Bytes) :
    (Outgoing.json (makeCallBusy username callId reason)).Plain := by
  rw [Outgoing.Plain, makeCallBusy, type_makeCallReply]
  decide

theorem plain_privateResponse (text target : Bytes) (messageId createdAt : ℤ) :
    (Outgoing.json (privateResponse text target messageId createdAt)).Plain := by
  rw [Outgoing.Plain, type_privateResponse]
  decide

theorem plain_usersResponse (users : List Bytes) : (Outgoing.json (usersResponse users)).Plain := by
  rw [Outgoing.Plain, type_usersResponse]
  decide

/-- A line of a call type tells of no message. -/
theorem plain_of_isCallType {object : JsonObject}
    (h : isCallType (fieldOrEmpty object "type") = true) : (Outgoing.json object).Plain := by
  constructor
  · intro htype
    rw [htype] at h
    exact absurd h (by decide)
  · intro htype
    rw [htype] at h
    exact absurd h (by decide)

theorem plain_callEvent {type : Bytes} (h : isCallType type = true)
    (username target callId reason : Bytes) :
    (Outgoing.json (makeCallEvent type username target callId reason)).Plain := by
  refine plain_of_isCallType ?_
  rwa [(makeCallEvent_fields type username target callId reason).1]

/-! Handlers without messages. -/

theorem aside_sendError (message : Bytes) : (sendError c message).Only Op.Aside :=
  Prog.only_perform (plain_error message)

theorem aside_sendOk (message : Bytes) : (sendJson c (makeOkResponse message)).Only Op.Aside :=
  Prog.only_perform (plain_ok message)

theorem aside_sendCallError (username callId reason : Bytes) :
    (sendCallError c username callId reason).Only Op.Aside :=
  Prog.only_perform (plain_callError username callId reason)

theorem aside_answerRoom (success : String) (result : Option Bytes) :
    (answerRoom c success result).Only Op.Aside := by
  cases result with
  | none => exact aside_sendOk _
  | some error => exact aside_sendError error

/-- What a handler does with the name of its session. -/
theorem delivers_username {f : Bytes → Handler Unit} (hnone : DeliversAll c .idle (f []))
    (hsome : ∀ name, name ≠ [] → DeliversAll c (.named name) (f name)) :
    DeliversAll c .idle (act (.username c) >>= f) := by
  rw [DeliversAll, delivery.follows_perform]
  refine ⟨⟨rfl, rfl⟩, fun name => ?_⟩
  show delivery.Follows c (if name = [] then .idle else .named name) _ _
  by_cases hname : name = []
  · subst hname
    rw [if_pos rfl]
    exact hnone
  · rw [if_neg hname]
    exact hsome name hname

theorem delivers_requireLoggedIn {f : Option Bytes → Handler Unit}
    (hnone : (f none).Only Op.Aside) (hsome : ∀ username, DeliversAll c (.named username) (f (some username))) :
    DeliversAll c .idle (requireLoggedIn c >>= f) := by
  refine delivers_username (f := fun username => (if username = [] then do
    sendError c (ascii "login required")
    pure none
  else pure (some username)) >>= f) ?_ fun name hname => ?_
  · refine delivers_of_only ?_ trivial
    rw [if_pos rfl]
    exact ⟨plain_error _, fun _ => hnone⟩
  · show DeliversAll c (.named name) ((if name = [] then _ else _) >>= f)
    rw [if_neg hname]
    exact hsome name

theorem login_delivers (username : Bytes) : DeliversAll c .idle (login c username) := by
  refine delivers_username ?_ fun name hname => ?_
  · refine delivers_of_only ?_ trivial
    rw [if_neg (not_not.mpr rfl)]
    refine ⟨trivial, fun result => ?_⟩
    cases result with
    | some error => exact aside_sendError error
    | none => exact ⟨trivial, fun _ => aside_sendOk _⟩
  · rw [if_pos hname]
    exact delivers_of_only (aside_sendError _) trivial

theorem aside_leaveCall (username : Bytes) : (leaveCall username).Only Op.Aside := by
  refine ⟨trivial, fun event => ?_⟩
  cases event with
  | none => exact trivial
  | some callEvent =>
    refine ⟨trivial, fun found => ?_⟩
    cases found with
    | none => exact trivial
    | some peerConnection =>
      refine Prog.only_perform (plain_callEvent ?_ _ _ _ _)
      rw [disconnectType]
      split_ifs <;> decide

theorem logout_delivers (notifyClient : Bool) : DeliversAll c .idle (logout c notifyClient) := by
  refine delivers_username ?_ fun name hname => ?_
  · refine delivers_of_only ?_ trivial
    rw [if_pos rfl]
    cases notifyClient with
    | true => exact aside_sendError _
    | false => exact trivial
  · refine delivers_of_only ?_ trivial
    rw [if_neg hname]
    refine (aside_leaveCall name).bind fun _ => ⟨trivial, fun _ => ⟨trivial, fun _ => ⟨trivial, fun _ => ?_⟩⟩⟩
    cases notifyClient with
    | true => exact aside_sendOk _
    | false => exact trivial

theorem createRoom_delivers (room : Bytes) : DeliversAll c .idle (createRoom c room) :=
  delivers_requireLoggedIn trivial fun _ =>
    delivers_of_only ⟨trivial, fun result => aside_answerRoom _ result⟩ trivial

theorem joinRoom_delivers (room : Bytes) : DeliversAll c .idle (joinRoom c room) :=
  delivers_requireLoggedIn trivial fun _ =>
    delivers_of_only ⟨trivial, fun result => aside_answerRoom _ result⟩ trivial

theorem leaveRoom_delivers (room : Bytes) : DeliversAll c .idle (leaveRoom c room) :=
  delivers_requireLoggedIn trivial fun _ =>
    delivers_of_only ⟨trivial, fun result => aside_answerRoom _ result⟩ trivial

theorem sendOnlineUsers_delivers : DeliversAll c .idle (sendOnlineUsers c) :=
  delivers_of_only ⟨trivial, fun users => Prog.only_perform (plain_usersResponse users)⟩ trivial

/-! Handlers with messages. -/

theorem sendPrivate_delivers (target message : Bytes) :
    DeliversAll c .idle (sendPrivate c target message) := by
  refine delivers_requireLoggedIn trivial fun username => ?_
  dsimp only
  split_ifs
  · exact delivers_of_only (aside_sendError _) trivial
  · exact delivers_of_only (aside_sendError _) trivial
  · refine ⟨trivial, fun createdAt => ⟨rfl, fun saved => ?_⟩⟩
    cases saved with
    | none => exact delivers_of_only (aside_sendError _) trivial
    | some messageId =>
      refine ⟨trivial, fun found => ?_⟩
      cases found with
      | none => exact ⟨.inr (plain_privateResponse _ _ _ _), fun _ => trivial⟩
      | some targetConnection =>
        exact ⟨.inl rfl, fun _ => ⟨.inr (plain_privateResponse _ _ _ _), fun _ => trivial⟩⟩

/-- The loop sends the event on every connection that was found. -/
theorem sendToAll_delivers (id : ℤ) (save : Save) (connections : List Conn) :
    DeliversAll c (.sending id save connections) (sendToAll (save.event id) connections) := by
  induction connections with
  | nil => exact rfl
  | cons connection connections ih => exact ⟨⟨rfl, rfl⟩, fun _ => ih⟩

theorem sendRoomMessage_delivers (room message : Bytes) :
    DeliversAll c .idle (sendRoomMessage c room message) := by
  refine delivers_requireLoggedIn trivial fun username => ?_
  dsimp only
  split_ifs
  · exact delivers_of_only (aside_sendError _) trivial
  · refine ⟨rfl, fun members => ?_⟩
    cases members with
    | error error => exact delivers_of_only (aside_sendError error) trivial
    | ok members =>
      refine ⟨trivial, fun createdAt => ⟨⟨members, rfl⟩, fun saved => ?_⟩⟩
      cases saved with
      | none => exact delivers_of_only (aside_sendError _) trivial
      | some messageId =>
        exact ⟨⟨messageId, _, rfl⟩, fun connections =>
          sendToAll_delivers messageId (.roomMessage room username message createdAt) connections⟩

theorem sendPrivateHistory_delivers (peer limitText before : Bytes) :
    DeliversAll c .idle (sendPrivateHistory c peer limitText before) := by
  refine delivers_requireLoggedIn trivial fun username => ?_
  dsimp only
  split_ifs
  · exact delivers_of_only (aside_sendError _) trivial
  · exact ⟨trivial, fun messages => ⟨⟨peer, .inl rfl⟩, fun _ => trivial⟩⟩

theorem sendRoomHistory_delivers (room limitText before : Bytes) :
    DeliversAll c .idle (sendRoomHistory c room limitText before) := by
  refine delivers_requireLoggedIn trivial fun username => ?_
  dsimp only
  split_ifs
  · exact delivers_of_only (aside_sendError _) trivial
  · exact ⟨trivial, fun messages => ⟨⟨room, .inr rfl⟩, fun _ => trivial⟩⟩

/-! Calls. -/

variable {username target callId : Bytes}

theorem aside_handleInvite (request : JsonObject) :
    (handleInvite c request username target callId).Only Op.Aside := by
  rw [handleInvite]
  split_ifs
  · exact aside_sendCallError _ _ _
  refine ⟨trivial, fun found => ?_⟩
  cases found with
  | none => exact aside_sendCallError _ _ _
  | some targetConnection =>
    refine ⟨trivial, fun started => ?_⟩
    cases started with
    | some reason =>
      show Prog.Only Op.Aside (if _ then _ else _)
      split_ifs
      · exact Prog.only_perform (plain_callBusy _ _ _)
      · exact aside_sendCallError _ _ _
    | none =>
      refine ⟨trivial, fun found => ?_⟩
      cases found with
      | none => exact ⟨trivial, fun _ => aside_sendCallError _ _ _⟩
      | some targetConnection =>
        refine Prog.only_perform (plain_of_isCallType ?_)
        rw [fieldOrEmpty_insert_of_ne _ _ (by decide),
          (makeCallEvent_fields _ username target callId []).1]
        decide

theorem aside_handleSignaling (request : JsonObject) (type : Bytes) :
    (handleSignaling c request type username target callId).Only Op.Aside := by
  rw [handleSignaling]
  split_ifs
  · exact aside_sendCallError _ _ _
  refine ⟨trivial, fun valid => ?_⟩
  cases valid with
  | some reason => exact aside_sendCallError _ _ _
  | none =>
    refine ⟨trivial, fun found => ?_⟩
    cases found with
    | none => exact ⟨trivial, fun _ => aside_sendCallError _ _ _⟩
    | some targetConnection => exact Prog.only_perform trivial

theorem aside_handleCallAction (request : JsonObject) {type : Bytes} (htype : isCallType type = true) :
    (handleCallAction c request type username target callId).Only Op.Aside := by
  have hoperation : (callOperation type username target callId).Only Op.Aside := by
    rw [callOperation]
    split_ifs <;> first | exact Prog.only_perform trivial | exact trivial
  refine hoperation.bind fun result => ?_
  cases result with
  | some reason => exact aside_sendCallError _ _ _
  | none =>
    refine ⟨trivial, fun found => ?_⟩
    cases found with
    | some targetConnection => exact Prog.only_perform (plain_callEvent htype _ _ _ _)
    | none =>
      dsimp only
      split_ifs
      · exact ⟨trivial, fun _ => aside_sendCallError _ _ _⟩
      · exact trivial

theorem handleCallRequest_delivers (request : JsonObject)
    (htype : isCallType (fieldOrEmpty request "type") = true) :
    DeliversAll c .idle (handleCallRequest c request) := by
  refine delivers_requireLoggedIn trivial fun username => delivers_of_only ?_ trivial
  dsimp only
  split_ifs
  · exact aside_sendCallError _ _ _
  · exact aside_sendCallError _ _ _
  · exact aside_sendCallError _ _ _
  · exact aside_handleInvite request
  · exact aside_handleSignaling request _
  · exact aside_handleCallAction request htype

/-- Both branches of a test. -/
theorem delivers_ite {q : Prop} [Decidable q] {p₁ p₂ : Handler Unit} (h₁ : DeliversAll c phase p₁)
    (h₂ : DeliversAll c phase p₂) : DeliversAll c phase (if q then p₁ else p₂) := by
  split_ifs
  · exact h₁
  · exact h₂

theorem handleRequest_delivers (request : JsonObject) : DeliversAll c .idle (handleRequest c request) := by
  rw [handleRequest]
  refine delivers_ite (login_delivers _) ?_
  refine delivers_ite (logout_delivers true) ?_
  refine delivers_ite sendOnlineUsers_delivers ?_
  refine delivers_ite (sendPrivate_delivers _ _) ?_
  refine delivers_ite (createRoom_delivers _) ?_
  refine delivers_ite (joinRoom_delivers _) ?_
  refine delivers_ite (leaveRoom_delivers _) ?_
  refine delivers_ite (sendRoomMessage_delivers _ _) ?_
  refine delivers_ite (sendPrivateHistory_delivers _ _ _) ?_
  refine delivers_ite (sendRoomHistory_delivers _ _ _) ?_
  split_ifs with htype
  · exact handleCallRequest_delivers request htype
  · exact delivers_of_only (aside_sendError _) trivial

end

/-- **Every handler delivers what it has in hand.** -/
theorem server_delivers (c : Conn) (input : Input) :
    delivery.Follows c delivery.resting (server.program c input)
      fun phase _ => delivery.mayRest phase := by
  cases input with
  | connected => exact delivers_of_only (aside_sendOk _) trivial
  | disconnected => exact logout_delivers false
  | reaction reaction =>
    cases reaction with
    | dispatch line request => exact handleRequest_delivers request
    | parseError line error => exact delivers_of_only (aside_sendError _) trivial
    | fault line => exact (trivial : Delivery.Done .idle)
    | tooLarge => exact delivers_of_only ⟨plain_error _, fun _ => ⟨trivial, fun _ => trivial⟩⟩ trivial

/-! ### What is saved -/

/-- The action is a successful save, under this id. -/
def Saves (id : ℤ) (event : Event Op Op.Response) : Save → Prop
  | .privateMessage sender receiver content timestamp =>
    event = ⟨.savePrivateMessage sender receiver content timestamp, some id⟩
  | .roomMessage room sender content timestamp =>
    event = ⟨.saveRoomMessage room sender content timestamp, some id⟩

/-- An action adds the row of the message it saves, under the next id, or leaves the table alone. -/
theorem storage_exec (env : Env) (op : Op) (s : ServerState) :
    ((exec env op s).2.storage = s.storage ∧ ∀ id save, ¬ Saves id ⟨op, (exec env op s).1⟩ save) ∨
      ∃ save : Save, Saves s.storage.nextId ⟨op, (exec env op s).1⟩ save ∧
        (exec env op s).2.storage =
          ⟨s.storage.rows ++ [save.row s.storage.nextId], s.storage.nextId, s.storage.ids⟩ := by
  have other : (∀ a b text t, op ≠ .savePrivateMessage a b text t) →
      (∀ room a text t, op ≠ .saveRoomMessage room a text t) →
      ∀ id save, ¬ Saves id ⟨op, (exec env op s).1⟩ save := by
    intro hprivate hroom id save hsaves
    cases save with
    | privateMessage sender receiver content timestamp =>
      exact hprivate _ _ _ _ (congrArg Event.op hsaves)
    | roomMessage room sender content timestamp => exact hroom _ _ _ _ (congrArg Event.op hsaves)
  cases op with
  | savePrivateMessage sender receiver content timestamp =>
    cases hsaved : env.saved with
    | true =>
      refine .inr ⟨.privateMessage sender receiver content timestamp, ?_, ?_⟩
      · simp [Saves, exec, ServerState.onStorage, ChatStorage.savePrivateMessage, ChatStorage.insert, hsaved]
      · simp [exec, ServerState.onStorage, ChatStorage.savePrivateMessage, ChatStorage.insert, hsaved,
          Save.row]
    | false =>
      refine .inl ⟨?_, fun id save hsaves => ?_⟩
      · simp [exec, ServerState.onStorage, ChatStorage.savePrivateMessage, ChatStorage.insert, hsaved]
      · cases save <;>
          simp [Saves, exec, ServerState.onStorage, ChatStorage.savePrivateMessage, ChatStorage.insert,
            hsaved] at hsaves
  | saveRoomMessage room sender content timestamp =>
    cases hsaved : env.saved with
    | true =>
      refine .inr ⟨.roomMessage room sender content timestamp, ?_, ?_⟩
      · simp [Saves, exec, ServerState.onStorage, ChatStorage.saveRoomMessage, ChatStorage.insert, hsaved]
      · simp [exec, ServerState.onStorage, ChatStorage.saveRoomMessage, ChatStorage.insert, hsaved,
          Save.row]
    | false =>
      refine .inl ⟨?_, fun id save hsaves => ?_⟩
      · simp [exec, ServerState.onStorage, ChatStorage.saveRoomMessage, ChatStorage.insert, hsaved]
      · cases save <;>
          simp [Saves, exec, ServerState.onStorage, ChatStorage.saveRoomMessage, ChatStorage.insert,
            hsaved] at hsaves
  | forceClose connection =>
    refine .inl ⟨?_, other (by simp) (by simp)⟩
    show (s.forceClose connection).storage = s.storage
    rw [ServerState.forceClose_eq]
    rfl
  | _ => exact .inl ⟨rfl, other (by simp) (by simp)⟩

end ChatService
