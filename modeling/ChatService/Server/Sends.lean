import ChatService.Server.ChatServer

/-!
# What the handlers send that have nothing to do with calls

A call event is a line of one of the call types.  Most handlers leave the calls alone and send no such
line; what they send to others than their own connection is a private message or a room message.

* `AnswersOnly` — the handler sends to its own connection only, and no call event.
* `Tells` — the handler also sends lines of a certain kind to others.
-/

namespace ChatService

open AtomicProgram

/-- A call event: its type, the sender it names, the user it is sent to, and its call id. -/
structure CallEvent where
  type : Bytes
  sender : Bytes
  recipient : Bytes
  callId : Bytes
deriving DecidableEq

/-- The call event in a line, when it is sent to `recipient`.  The replies `call_error` and `call_busy`
are none. -/
def Outgoing.callEvent? (recipient : Bytes) : Outgoing → Option CallEvent
  | json object =>
    if isCallType (fieldOrEmpty object "type") then
      some ⟨fieldOrEmpty object "type", fieldOrEmpty object "from", recipient,
        fieldOrEmpty object "call_id"⟩
    else none
  | signaling type username _ callId _ _ => some ⟨type, username, recipient, callId⟩
  | privateHistory _ _ => none
  | roomHistory _ _ => none

/-- The line is no call event, whoever gets it. -/
def NoCallEvent (payload : Outgoing) : Prop := ∀ recipient, payload.callEvent? recipient = none

/-- Other types than those of call events. -/
theorem noCallEvent_json {object : JsonObject}
    (h : isCallType (fieldOrEmpty object "type") = false) : NoCallEvent (.json object) := by
  intro recipient
  rw [Outgoing.callEvent?, h]
  rfl

theorem noCallEvent_privateEvent (username message : Bytes) (messageId createdAt : ℤ) :
    NoCallEvent (.json (privateEvent username message messageId createdAt)) := by
  refine noCallEvent_json ?_
  rw [type_privateEvent]
  decide

theorem noCallEvent_roomEvent (room username message : Bytes) (messageId createdAt : ℤ) :
    NoCallEvent (.json (roomEvent room username message messageId createdAt)) := by
  refine noCallEvent_json ?_
  rw [type_roomEvent]
  decide

/-! ### Plain actions -/

/-- The actions of a handler of connection `c` that leave the calls alone, answer with no call event, and
send to others only what `Q` allows. -/
def Op.Plain (c : Conn) (Q : Outgoing → Prop) : Op → Prop
  | .startCall _ _ _ => False
  | .acceptCall _ _ _ => False
  | .rejectCall _ _ _ => False
  | .cancelCall _ _ _ => False
  | .timeoutCall _ _ _ => False
  | .hangupCall _ _ _ => False
  | .removeUser _ => False
  | .send connection payload =>
    (connection = c ∧ NoCallEvent payload) ∨ Q payload
  | _ => True

theorem Op.Plain.mono {c : Conn} {Q Q' : Outgoing → Prop} (hQ : ∀ payload, Q payload → Q' payload)
    {op : Op} (h : op.Plain c Q) : op.Plain c Q' := by
  cases op with
  | send connection payload => exact h.imp_right (hQ payload)
  | _ => exact h

theorem calls_plain {c : Conn} {Q : Outgoing → Prop} {op : Op} (h : op.Plain c Q) (env : Env)
    (s : ServerState) : (exec env op s).2.callManager = s.callManager := by
  cases op with
  | forceClose connection =>
    show (s.forceClose connection).callManager = s.callManager
    rw [ServerState.forceClose_eq]
    rfl
  | startCall a b id => exact h.elim
  | acceptCall b a id => exact h.elim
  | rejectCall b a id => exact h.elim
  | cancelCall a b id => exact h.elim
  | timeoutCall a b id => exact h.elim
  | hangupCall x y id => exact h.elim
  | removeUser u => exact h.elim
  | _ => rfl

/-- The handler leaves the calls alone and sends to its own connection only, and no call event. -/
def AnswersOnly {α : Type} (c : Conn) (p : Handler α) : Prop := p.Only (Op.Plain c fun _ => False)

section

variable {c : Conn}

theorem answersOnly_sendJson {object : JsonObject}
    (h : isCallType (fieldOrEmpty object "type") = false) : AnswersOnly c (sendJson c object) :=
  Prog.only_perform (.inl ⟨rfl, noCallEvent_json h⟩)

theorem answersOnly_sendError (message : Bytes) : AnswersOnly c (sendError c message) := by
  refine answersOnly_sendJson ?_
  rw [type_makeErrorResponse]
  decide

theorem answersOnly_sendOk (message : Bytes) :
    AnswersOnly c (sendJson c (makeOkResponse message)) := by
  refine answersOnly_sendJson ?_
  rw [type_makeOkResponse]
  decide

theorem answersOnly_sendCallError (username callId reason : Bytes) :
    AnswersOnly c (sendCallError c username callId reason) := by
  refine answersOnly_sendJson ?_
  rw [makeCallError, type_makeCallReply]
  decide

theorem answersOnly_sendCallBusy (username callId reason : Bytes) :
    AnswersOnly c (sendJson c (makeCallBusy username callId reason)) := by
  refine answersOnly_sendJson ?_
  rw [makeCallBusy, type_makeCallReply]
  decide

theorem answersOnly_requireLoggedIn : AnswersOnly c (requireLoggedIn c) := by
  refine Prog.Only.bind (Prog.only_perform trivial) fun name => ?_
  split_ifs
  · exact (answersOnly_sendError _).bind fun _ => trivial
  · exact trivial

theorem answersOnly_login (username : Bytes) : AnswersOnly c (login c username) := by
  refine Prog.Only.bind (Prog.only_perform trivial) fun name => ?_
  split_ifs
  · exact answersOnly_sendError _
  · refine ⟨trivial, fun result => ?_⟩
    cases result with
    | some error => exact answersOnly_sendError error
    | none => exact ⟨trivial, fun _ => answersOnly_sendOk _⟩

theorem answersOnly_answerRoom (success : String) (result : Option Bytes) :
    AnswersOnly c (answerRoom c success result) := by
  cases result with
  | none => exact answersOnly_sendOk _
  | some error => exact answersOnly_sendError error

theorem answersOnly_createRoom (room : Bytes) : AnswersOnly c (createRoom c room) := by
  refine answersOnly_requireLoggedIn.bind fun name => ?_
  cases name with
  | none => exact trivial
  | some username => exact ⟨trivial, fun result => answersOnly_answerRoom _ result⟩

theorem answersOnly_joinRoom (room : Bytes) : AnswersOnly c (joinRoom c room) := by
  refine answersOnly_requireLoggedIn.bind fun name => ?_
  cases name with
  | none => exact trivial
  | some username => exact ⟨trivial, fun result => answersOnly_answerRoom _ result⟩

theorem answersOnly_leaveRoom (room : Bytes) : AnswersOnly c (leaveRoom c room) := by
  refine answersOnly_requireLoggedIn.bind fun name => ?_
  cases name with
  | none => exact trivial
  | some username => exact ⟨trivial, fun result => answersOnly_answerRoom _ result⟩

theorem answersOnly_sendOnlineUsers : AnswersOnly c (sendOnlineUsers c) := by
  refine ⟨trivial, fun users => answersOnly_sendJson ?_⟩
  rw [type_usersResponse]
  decide

theorem answersOnly_sendPrivateHistory (peer limitText before : Bytes) :
    AnswersOnly c (sendPrivateHistory c peer limitText before) := by
  refine answersOnly_requireLoggedIn.bind fun name => ?_
  cases name with
  | none => exact trivial
  | some username =>
    dsimp only
    split_ifs
    · exact answersOnly_sendError _
    · exact ⟨trivial, fun messages => Prog.only_perform (.inl ⟨rfl, fun recipient => rfl⟩)⟩

theorem answersOnly_sendRoomHistory (room limitText before : Bytes) :
    AnswersOnly c (sendRoomHistory c room limitText before) := by
  refine answersOnly_requireLoggedIn.bind fun name => ?_
  cases name with
  | none => exact trivial
  | some username =>
    dsimp only
    split_ifs
    · exact answersOnly_sendError _
    · exact ⟨trivial, fun messages => Prog.only_perform (.inl ⟨rfl, fun recipient => rfl⟩)⟩

/-! ### Messages -/

variable {α : Type} {env : Env} {Q : Outgoing → Prop} {s : ServerState}

/-- Run from `s`, the handler takes plain actions only. -/
def Tells (env : Env) (c : Conn) (Q : Outgoing → Prop) (p : Handler α) (s : ServerState) : Prop :=
  ∀ entry ∈ p.log exec env s, entry.2.op.Plain c Q

theorem tells_of_only {p : Handler α} (h : p.Only (Op.Plain c Q)) : Tells env c Q p s :=
  fun _ hentry => h.log env hentry

theorem AnswersOnly.only {p : Handler α} (h : AnswersOnly c p) : p.Only (Op.Plain c Q) :=
  h.mono fun _ => Op.Plain.mono fun _ => False.elim

/-- What `requireLoggedIn` answers. -/
theorem run_requireLoggedIn (env : Env) (c : Conn) (s : ServerState) :
    (requireLoggedIn c).run exec env s =
      if (s.connections c).username = [] then
        (none, s.send c (.json (makeErrorResponse (ascii "login required"))))
      else (some (s.connections c).username, s) := by
  show Prog.run exec env (if (s.connections c).username = [] then _ else _) s = _
  split_ifs <;> rfl

/-- A handler that begins by asking for the name of its session. -/
theorem tells_requireLoggedIn {f : Option Bytes → Handler α} (hnone : AnswersOnly c (f none))
    (hsome : Tells env c Q (f (some (s.connections c).username)) s) :
    Tells env c Q (requireLoggedIn c >>= f) s := by
  intro entry hentry
  rw [Prog.log_bind, run_requireLoggedIn, List.mem_append] at hentry
  rcases hentry with hentry | hentry
  · exact answersOnly_requireLoggedIn.only.log env hentry
  · split_ifs at hentry
    · exact hnone.only.log env hentry
    · exact hsome entry hentry

/-- `sendPrivate` sends the event of its own session to the target. -/
theorem tells_sendPrivate {target message : Bytes} (hQ : ∀ messageId createdAt,
    Q (.json (privateEvent (s.connections c).username message messageId createdAt))) :
    Tells env c Q (sendPrivate c target message) s := by
  refine tells_requireLoggedIn trivial (tells_of_only ?_)
  have herror : ∀ text, (sendError c text).Only (Op.Plain c Q) :=
    fun text => (answersOnly_sendError text).only
  have hresponse : ∀ text messageId createdAt,
      (sendJson c (privateResponse text target messageId createdAt)).Only (Op.Plain c Q) := by
    intro text messageId createdAt
    refine (answersOnly_sendJson ?_).only
    rw [type_privateResponse]
    decide
  dsimp only
  split_ifs
  · exact herror _
  · exact herror _
  · refine ⟨trivial, fun createdAt => ⟨trivial, fun saved => ?_⟩⟩
    cases saved with
    | none => exact herror _
    | some messageId =>
      refine ⟨trivial, fun found => ?_⟩
      cases found with
      | none => exact hresponse _ messageId createdAt
      | some targetConnection =>
        exact ⟨.inr (hQ messageId createdAt), fun _ => hresponse _ messageId createdAt⟩

theorem only_sendToAll {payload : Outgoing} (h : Q payload) (connections : List Conn) :
    (sendToAll payload connections).Only (Op.Plain c Q) := by
  induction connections with
  | nil => exact trivial
  | cons connection connections ih => exact ⟨.inr h, fun _ => ih⟩

/-- `sendRoomMessage` sends the event of its own session to the members. -/
theorem tells_sendRoomMessage {room message : Bytes} (hQ : ∀ messageId createdAt,
    Q (.json (roomEvent room (s.connections c).username message messageId createdAt))) :
    Tells env c Q (sendRoomMessage c room message) s := by
  refine tells_requireLoggedIn trivial (tells_of_only ?_)
  have herror : ∀ text, (sendError c text).Only (Op.Plain c Q) :=
    fun text => (answersOnly_sendError text).only
  dsimp only
  split_ifs
  · exact herror _
  · refine ⟨trivial, fun members => ?_⟩
    cases members with
    | error error => exact herror error
    | ok members =>
      refine ⟨trivial, fun createdAt => ⟨trivial, fun saved => ?_⟩⟩
      cases saved with
      | none => exact herror _
      | some messageId =>
        exact ⟨trivial, fun connections => only_sendToAll (hQ messageId createdAt) connections⟩

end

end ChatService
