import ChatService.Server.CallLives
import ChatService.Server.EventLines

/-!
# What one user's request makes the server send to another

* `Announced` — the lines that a request may send to another connection than its own.
* `announces_handleRequest` — there are no others.
* `sends_handleRequest` — a signaling request that passes the checks is forwarded.
* `sent_lines_are_events_iff` — all these lines are events, and nothing else, exactly when what the
  request pastes into a forwarded line is one object without a newline.
-/

namespace ChatService

open AtomicProgram Byte

/-- The calls of `TcpConnection::send` in a log, with what they send. -/
def sends (log : List (ServerState × Event Op Op.Response)) : List (Conn × Outgoing) :=
  log.filterMap fun entry =>
    match entry.2.op with
    | .send connection payload => some (connection, payload)
    | _ => none

theorem sends_append (log log' : List (ServerState × Event Op Op.Response)) :
    sends (log ++ log') = sends log ++ sends log' := List.filterMap_append ..

/-- The request of `u` is a signaling request that passes all the checks. -/
def Forwards (s : ServerState) (u : Bytes) (request : JsonObject) : Prop :=
  isSignalingType (fieldOrEmpty request "type") = true ∧
    isValidName (fieldOrEmpty request "to") = true ∧
    isValidCallId (fieldOrEmpty request "call_id") = true ∧
    fieldOrEmpty request "to" ≠ u ∧
    (fieldOrEmpty request (payloadName (fieldOrEmpty request "type"))).head? = some lbrace ∧
    s.callManager.validateSignaling u (fieldOrEmpty request "to") (fieldOrEmpty request "call_id")
      (fieldOrEmpty request "type") = none

/-- What a forwarded line pastes. -/
def pastedPayload (request : JsonObject) : Bytes :=
  fieldOrEmpty request (payloadName (fieldOrEmpty request "type"))

/-- The keys of a call event beside those that all call events have. -/
def ownKeys (type : Bytes) : List String :=
  if type = ascii "call_invite" then ["media"]
  else if type = ascii "call_reject" ∨ type = ascii "call_timeout" then ["reason"]
  else if isSignalingType type then [payloadName type]
  else []

/-- The event that a request of `u` makes the server send to others, if there is one.  A logout ends the
call that `u` is in. -/
def eventSpec (s : ServerState) (u : Bytes) (request : JsonObject) : Option EventSpec :=
  if fieldOrEmpty request "type" = ascii "private" then
    some ⟨ascii "private", none, ["type", "from", "message", "id", "created_at"]⟩
  else if fieldOrEmpty request "type" = ascii "room_msg" then
    some ⟨ascii "room", none, ["type", "room", "from", "message", "id", "created_at"]⟩
  else if fieldOrEmpty request "type" = ascii "logout" then
    (s.callManager.users[u]?).map fun entry =>
      ⟨leavingType entry.state, some entry.callId, callKeys ++ ["reason"]⟩
  else if isCallType (fieldOrEmpty request "type") then
    some ⟨fieldOrEmpty request "type", some (fieldOrEmpty request "call_id"),
      callKeys ++ ownKeys (fieldOrEmpty request "type")⟩
  else none

/-- The lines that a request of `u` may send to another connection, which is `connection`. -/
inductive Announced (s : ServerState) (u : Bytes) (request : JsonObject) (connection : Conn) :
    Outgoing → Prop where
  | message {messageId createdAt : ℤ} : fieldOrEmpty request "type" = ascii "private" →
    Announced s u request connection
      (.json (privateEvent u (fieldOrEmpty request "message") messageId createdAt))
  | roomMessage {messageId createdAt : ℤ} : fieldOrEmpty request "type" = ascii "room_msg" →
    Announced s u request connection (.json (roomEvent (fieldOrEmpty request "room") u
      (fieldOrEmpty request "message") messageId createdAt))
  | invite : fieldOrEmpty request "type" = ascii "call_invite" →
    (s.connections connection).username = fieldOrEmpty request "to" →
    Announced s u request connection (.json ((makeCallEvent (ascii "call_invite") u
      (fieldOrEmpty request "to") (fieldOrEmpty request "call_id") []).insert (ascii "media")
        (ascii "video")))
  | action : isCallType (fieldOrEmpty request "type") = true →
    (s.connections connection).username = fieldOrEmpty request "to" →
    Announced s u request connection (.json (makeCallEvent (fieldOrEmpty request "type") u
      (fieldOrEmpty request "to") (fieldOrEmpty request "call_id")
      (eventReason (fieldOrEmpty request "type") request)))
  | signaling : Forwards s u request →
    (s.connections connection).username = fieldOrEmpty request "to" →
    Announced s u request connection (.signaling (fieldOrEmpty request "type") u
      (fieldOrEmpty request "to") (fieldOrEmpty request "call_id")
      (ascii (payloadName (fieldOrEmpty request "type"))) (pastedPayload request))
  | leaving {entry : UserCall} : fieldOrEmpty request "type" = ascii "logout" →
    s.callManager.users[u]? = some entry →
    (s.connections connection).username = entry.peer →
    Announced s u request connection (.json (makeCallEvent (leavingType entry.state) u entry.peer
      entry.callId (ascii "peer_disconnected")))

/-! ### Following a handler -/

/-- Run from `s`, the handler sends to others than its own connection only what `Q` allows. -/
def Announces {α : Type} (env : Env) (c : Conn) (Q : Conn → Outgoing → Prop) (p : Handler α)
    (s : ServerState) : Prop :=
  ∀ out ∈ sends (p.log exec env s), out.1 ≠ c → Q out.1 out.2

section

variable {α β : Type} {env : Env} {c : Conn} {Q : Conn → Outgoing → Prop} {s : ServerState}

theorem announces_ret (a : α) : Announces env c Q (.ret a : Handler α) s := by
  intro out hout
  exact absurd hout (by simp [sends])

/-- An action that sends nothing, and then the rest. -/
theorem announces_act {op : Op} {f : op.Response → Handler α} {r : op.Response} {s' : ServerState}
    (hexec : exec env op s = (r, s')) (hop : sends [(s, ⟨op, r⟩)] = [])
    (h : Announces env c Q (f r) s') : Announces env c Q (act op >>= f) s := by
  intro out hout
  rw [Prog.perform_bind, Prog.log_call, hexec, ← List.singleton_append, sends_append, hop] at hout
  exact h out hout

theorem announces_send {connection : Conn} {payload : Outgoing} (h : Q connection payload) :
    Announces env c Q (act (.send connection payload)) s := by
  intro out hout hne
  obtain rfl : out = (connection, payload) := List.mem_singleton.mp hout
  exact h

theorem Announces.bind {p : Handler α} {f : α → Handler β} (h : Announces env c Q p s)
    (hf : Announces env c Q (f (p.run exec env s).1) (p.run exec env s).2) :
    Announces env c Q (p >>= f) s := by
  intro out hout
  rw [Prog.log_bind, sends_append, List.mem_append] at hout
  rcases hout with hout | hout
  · exact h out hout
  · exact hf out hout

theorem mem_sends {log : List (ServerState × Event Op Op.Response)} {out : Conn × Outgoing} :
    out ∈ sends log ↔ ∃ entry ∈ log, entry.2.op = .send out.1 out.2 := by
  rw [sends, List.mem_filterMap]
  refine exists_congr fun entry => and_congr_right fun _ => ?_
  obtain ⟨connection, payload⟩ := out
  split
  · next heq => simp [heq]
  · next hop => simpa using fun heq => hop _ _ heq

theorem announces_of_tells {P : Outgoing → Prop} {p : Handler α} (h : Tells env c P p s)
    (hP : ∀ connection payload, P payload → Q connection payload) : Announces env c Q p s := by
  intro out hout hne
  obtain ⟨entry, hentry, hop⟩ := mem_sends.mp hout
  have hplain := h entry hentry
  rw [hop] at hplain
  rcases hplain with ⟨heq, -⟩ | hP'
  · exact absurd heq hne
  · exact hP _ _ hP'

theorem announces_of_answersOnly {p : Handler α} (h : AnswersOnly c p) : Announces env c Q p s :=
  announces_of_tells (tells_of_only h) fun _ _ hfalse => hfalse.elim

/-! ### The handlers -/

/-- A handler that begins by asking for the name of its session. -/
theorem announces_requireLoggedIn {f : Option Bytes → Handler α} (hnone : AnswersOnly c (f none))
    (hsome : Announces env c Q (f (some (s.connections c).username)) s) :
    Announces env c Q (requireLoggedIn c >>= f) s := by
  refine (announces_of_answersOnly answersOnly_requireLoggedIn).bind ?_
  rw [run_requireLoggedIn]
  split_ifs
  · exact announces_of_answersOnly hnone
  · exact hsome

variable {request : JsonObject} {u : Bytes}

theorem announces_handleInvite (h : InOrder s fun _ => .quiet)
    (htype : fieldOrEmpty request "type" = ascii "call_invite") :
    Announces env c (Announced s u request)
      (handleInvite c request u (fieldOrEmpty request "to") (fieldOrEmpty request "call_id")) s := by
  rw [handleInvite]
  split_ifs
  · exact announces_of_answersOnly (answersOnly_sendCallError ..)
  cases hfound : s.userManager.users[fieldOrEmpty request "to"]? with
  | none =>
    refine announces_act (exec_userFind hfound) rfl ?_
    exact announces_of_answersOnly (answersOnly_sendCallError ..)
  | some connection =>
    refine announces_act (exec_userFind hfound) rfl ?_
    cases hstart : (s.callManager.startCall u (fieldOrEmpty request "to")
        (fieldOrEmpty request "call_id")).1 with
    | some reason =>
      refine announces_act (r := some reason) (Prod.ext hstart rfl) rfl ?_
      dsimp only
      split_ifs
      · exact announces_of_answersOnly (answersOnly_sendCallBusy ..)
      · exact announces_of_answersOnly (answersOnly_sendCallError ..)
    | none =>
      refine announces_act (r := none) (Prod.ext hstart rfl) rfl ?_
      refine announces_act (exec_userFind hfound) rfl ?_
      exact announces_send (.invite htype (h.username_eq hfound))

theorem announces_handleSignaling (h : InOrder s fun _ => .quiet)
    (htype : isSignalingType (fieldOrEmpty request "type") = true)
    (hname : isValidName (fieldOrEmpty request "to") = true)
    (hid : isValidCallId (fieldOrEmpty request "call_id") = true)
    (hself : fieldOrEmpty request "to" ≠ u) :
    Announces env c (Announced s u request)
      (handleSignaling c request (fieldOrEmpty request "type") u (fieldOrEmpty request "to")
        (fieldOrEmpty request "call_id")) s := by
  rw [handleSignaling]
  split_ifs with hraw
  · exact announces_of_answersOnly (answersOnly_sendCallError ..)
  cases hvalid : s.callManager.validateSignaling u (fieldOrEmpty request "to")
      (fieldOrEmpty request "call_id") (fieldOrEmpty request "type") with
  | some reason =>
    refine announces_act (r := some reason) (Prod.ext hvalid rfl) rfl ?_
    exact announces_of_answersOnly (answersOnly_sendCallError ..)
  | none =>
    refine announces_act (r := none) (Prod.ext hvalid rfl) rfl ?_
    cases hfound : s.userManager.users[fieldOrEmpty request "to"]? with
    | none =>
      refine announces_act (exec_userFind hfound) rfl ?_
      refine announces_act rfl rfl ?_
      exact announces_of_answersOnly (answersOnly_sendCallError ..)
    | some connection =>
      refine announces_act (exec_userFind hfound) rfl ?_
      refine announces_send (.signaling ?_ (h.username_eq hfound))
      exact ⟨htype, hname, hid, hself, not_not.mp hraw, hvalid⟩

/-- The action sends nothing and leaves the users alone. -/
def Op.Silent (op : Op) : Prop :=
  (∀ connection payload, op ≠ .send connection payload) ∧
    ∀ env s, (exec env op s).2.userManager = s.userManager

theorem callOperation_silent (type x y id : Bytes) :
    (callOperation type x y id).Only Op.Silent := by
  rw [callOperation]
  split_ifs
  · exact Prog.only_perform ⟨(fun _ _ hop => by cases hop), fun _ _ => rfl⟩
  · exact Prog.only_perform ⟨(fun _ _ hop => by cases hop), fun _ _ => rfl⟩
  · exact Prog.only_perform ⟨(fun _ _ hop => by cases hop), fun _ _ => rfl⟩
  · exact Prog.only_perform ⟨(fun _ _ hop => by cases hop), fun _ _ => rfl⟩
  · exact Prog.only_perform ⟨(fun _ _ hop => by cases hop), fun _ _ => rfl⟩
  · exact trivial

theorem announces_handleCallAction (h : InOrder s fun _ => .quiet)
    (htype : isCallType (fieldOrEmpty request "type") = true) :
    Announces env c (Announced s u request)
      (handleCallAction c request (fieldOrEmpty request "type") u (fieldOrEmpty request "to")
        (fieldOrEmpty request "call_id")) s := by
  have hsilent := callOperation_silent (fieldOrEmpty request "type") u (fieldOrEmpty request "to")
    (fieldOrEmpty request "call_id")
  refine Announces.bind ?_ ?_
  · intro out hout
    obtain ⟨entry, hentry, hop⟩ := mem_sends.mp hout
    exact absurd hop ((hsilent.log env hentry).1 _ _)
  · have husers : ((callOperation (fieldOrEmpty request "type") u (fieldOrEmpty request "to")
        (fieldOrEmpty request "call_id")).run exec env s).2.userManager = s.userManager :=
      Prog.run_unchanged ServerState.userManager fun entry hentry =>
        (hsilent.log env hentry).2 env entry.1
    cases hresult : ((callOperation (fieldOrEmpty request "type") u (fieldOrEmpty request "to")
        (fieldOrEmpty request "call_id")).run exec env s).1 with
    | some reason => exact announces_of_answersOnly (answersOnly_sendCallError ..)
    | none =>
      cases hfound : s.userManager.users[fieldOrEmpty request "to"]? with
      | none =>
        refine announces_act (exec_userFind (husers ▸ hfound)) rfl ?_
        dsimp only
        split_ifs
        · refine announces_act rfl rfl ?_
          exact announces_of_answersOnly (answersOnly_sendCallError ..)
        · exact announces_ret ()
      | some connection =>
        refine announces_act (exec_userFind (husers ▸ hfound)) rfl ?_
        exact announces_send (.action htype (h.username_eq hfound))

theorem announces_handleCallRequest (h : InOrder s fun _ => .quiet)
    (htype : isCallType (fieldOrEmpty request "type") = true) :
    Announces env c (Announced s (s.connections c).username request)
      (handleCallRequest c request) s := by
  refine announces_requireLoggedIn trivial ?_
  dsimp only
  split_ifs with hname hid hself hinvite hsignaling
  · exact announces_of_answersOnly (answersOnly_sendCallError ..)
  · exact announces_of_answersOnly (answersOnly_sendCallError ..)
  · exact announces_of_answersOnly (answersOnly_sendCallError ..)
  · exact announces_handleInvite h hinvite
  · exact announces_handleSignaling h hsignaling (by simpa using hname) (by simpa using hid) hself
  · exact announces_handleCallAction h htype

theorem announces_leaveCall (h : InOrder s fun _ => .quiet)
    (htype : fieldOrEmpty request "type" = ascii "logout") :
    Announces env c (Announced s u request) (leaveCall u) s := by
  cases hu : s.callManager.users[u]? with
  | none =>
    have hexec : exec env (.removeUser u) s = (none, s) :=
      congrArg s.onCalls (CallManager.removeUser_idle hu)
    exact announces_act hexec rfl (announces_ret ())
  | some entry =>
    have hremove : (s.callManager.removeUser u).1 = some ⟨entry.callId, entry.peer, entry.state⟩ := by
      rw [CallManager.removeUser, hu]
    refine announces_act (r := some _) (Prod.ext hremove rfl) rfl ?_
    cases hfound : s.userManager.users[entry.peer]? with
    | none => exact announces_act (exec_userFind hfound) rfl (announces_ret ())
    | some connection =>
      refine announces_act (exec_userFind hfound) rfl (announces_send ?_)
      rw [disconnectType_eq_leavingType]
      exact .leaving htype hu (h.username_eq hfound)

theorem announces_logout (h : InOrder s fun _ => .quiet)
    (htype : fieldOrEmpty request "type" = ascii "logout") (notifyClient : Bool) :
    Announces env c (Announced s (s.connections c).username request) (logout c notifyClient) s := by
  have hexec : exec env (.username c) s = ((s.connections c).username, s) := rfl
  refine announces_act hexec rfl ?_
  by_cases hname : (s.connections c).username = []
  · rw [if_pos hname]
    cases notifyClient with
    | true => exact announces_of_answersOnly (answersOnly_sendError ..)
    | false => exact announces_ret ()
  · rw [if_neg hname]
    refine (announces_leaveCall h htype).bind (announces_of_answersOnly ?_)
    refine ⟨trivial, fun _ => ⟨trivial, fun _ => ⟨trivial, fun _ => ?_⟩⟩⟩
    cases notifyClient with
    | true => exact answersOnly_sendOk ..
    | false => exact trivial

theorem announces_sendPrivate (htype : fieldOrEmpty request "type" = ascii "private") :
    Announces env c (Announced s (s.connections c).username request)
      (sendPrivate c (fieldOrEmpty request "target") (fieldOrEmpty request "message")) s := by
  refine announces_of_tells (P := fun payload => ∀ connection,
    Announced s (s.connections c).username request connection payload) ?_ fun connection _ h => h connection
  exact tells_sendPrivate fun messageId createdAt connection => .message htype

theorem announces_sendRoomMessage (htype : fieldOrEmpty request "type" = ascii "room_msg") :
    Announces env c (Announced s (s.connections c).username request)
      (sendRoomMessage c (fieldOrEmpty request "room") (fieldOrEmpty request "message")) s := by
  refine announces_of_tells (P := fun payload => ∀ connection,
    Announced s (s.connections c).username request connection payload) ?_ fun connection _ h => h connection
  exact tells_sendRoomMessage fun messageId createdAt connection => .roomMessage htype

/-- Both branches of a test. -/
theorem announces_ite {q : Prop} [Decidable q] {p₁ p₂ : Handler α}
    (h₁ : q → Announces env c Q p₁ s) (h₂ : Announces env c Q p₂ s) :
    Announces env c Q (if q then p₁ else p₂) s := by
  split_ifs with hq
  · exact h₁ hq
  · exact h₂

/-- **What a request sends to others.** -/
theorem announces_handleRequest (h : InOrder s fun _ => .quiet) (request : JsonObject) :
    Announces env c (Announced s (s.connections c).username request) (handleRequest c request) s := by
  rw [handleRequest]
  refine announces_ite (fun _ => announces_of_answersOnly (answersOnly_login ..)) ?_
  refine announces_ite (fun htype => announces_logout h htype true) ?_
  refine announces_ite (fun _ => announces_of_answersOnly (answersOnly_sendOnlineUsers ..)) ?_
  refine announces_ite (fun htype => announces_sendPrivate htype) ?_
  refine announces_ite (fun _ => announces_of_answersOnly (answersOnly_createRoom ..)) ?_
  refine announces_ite (fun _ => announces_of_answersOnly (answersOnly_joinRoom ..)) ?_
  refine announces_ite (fun _ => announces_of_answersOnly (answersOnly_leaveRoom ..)) ?_
  refine announces_ite (fun htype => announces_sendRoomMessage htype) ?_
  refine announces_ite (fun _ => announces_of_answersOnly (answersOnly_sendPrivateHistory ..)) ?_
  refine announces_ite (fun _ => announces_of_answersOnly (answersOnly_sendRoomHistory ..)) ?_
  refine announces_ite (fun htype => announces_handleCallRequest h htype) ?_
  exact announces_of_answersOnly (answersOnly_sendError ..)

/-! ### The lines are events -/

theorem isCallType_ne {type : Bytes} (h : isCallType type = true) :
    type ≠ ascii "private" ∧ type ≠ ascii "room_msg" ∧ type ≠ ascii "logout" := by
  refine ⟨?_, ?_, ?_⟩ <;>
  · rintro rfl
    exact absurd h (by decide)

theorem eventSpec_of_callType (htype : isCallType (fieldOrEmpty request "type") = true) :
    eventSpec s u request = some ⟨fieldOrEmpty request "type", some (fieldOrEmpty request "call_id"),
      callKeys ++ ownKeys (fieldOrEmpty request "type")⟩ := by
  obtain ⟨hprivate, hroom, hlogout⟩ := isCallType_ne htype
  rw [eventSpec, if_neg hprivate, if_neg hroom, if_neg hlogout, if_pos htype]

theorem ownKeys_of_signaling {type : Bytes} (h : isSignalingType type = true) :
    isCallType type = true ∧ ownKeys type = [payloadName type] ∧
      (payloadName type = "sdp" ∨ payloadName type = "candidate") := by
  have htypes : type = ascii "webrtc_offer" ∨ type = ascii "webrtc_answer" ∨
      type = ascii "ice_candidate" := by simpa [isSignalingType] using h
  rcases htypes with rfl | rfl | rfl <;> decide

/-- An event has a reason only if its type has one. -/
theorem reason_mem_ownKeys {type : Bytes} (h : eventReason type request ≠ []) :
    "reason" ∈ ownKeys type := by
  rw [eventReason] at h
  split_ifs at h with hreject _ htimeout
  · rw [hreject]
    decide
  · rw [hreject]
    decide
  · rw [htimeout]
    decide
  · exact absurd rfl h

/-- What is announced is an event, unless it is forwarded. -/
theorem Announced.event {connection : Conn} {payload : Outgoing}
    (h : Announced s u request connection payload)
    (hone : Forwards s u request → OneObject (pastedPayload request)) :
    ∃ spec, eventSpec s u request = some spec ∧
      EventLine spec u (s.connections connection).username payload.line := by
  cases h with
  | message htype =>
    refine ⟨_, ?_, eventLine_privateEvent⟩
    rw [eventSpec, if_pos htype]
  | roomMessage htype =>
    refine ⟨_, ?_, eventLine_roomEvent⟩
    rw [eventSpec, htype]
    rfl
  | invite htype hto =>
    have hcall : isCallType (fieldOrEmpty request "type") = true := by
      rw [htype]
      decide
    refine ⟨_, eventSpec_of_callType hcall, ?_⟩
    rw [hto, htype]
    exact eventLine_invite
  | action htype hto =>
    refine ⟨_, eventSpec_of_callType htype, ?_⟩
    rw [hto]
    exact eventLine_makeCallEvent reason_mem_ownKeys
  | signaling hforwards hto =>
    obtain ⟨hcall, hkeys, hname⟩ := ownKeys_of_signaling hforwards.1
    refine ⟨_, eventSpec_of_callType hcall, ?_⟩
    rw [hto, hkeys]
    exact (eventLine_buildSignalingEvent_iff hname hforwards.2.2.2.2.1).mpr (hone hforwards)
  | @leaving entry htype hu hto =>
    refine ⟨⟨leavingType entry.state, some entry.callId, callKeys ++ ["reason"]⟩, ?_, ?_⟩
    · rw [eventSpec, htype, hu]
      rfl
    · rw [hto]
      exact eventLine_makeCallEvent fun _ => List.mem_singleton_self _

/-! ### What is forwarded -/

/-- What the rest sends after an action. -/
theorem mem_sends_act {op : Op} {f : op.Response → Handler α} {r : op.Response} {s' : ServerState}
    {out : Conn × Outgoing} (hexec : exec env op s = (r, s'))
    (h : out ∈ sends ((f r).log exec env s')) : out ∈ sends ((act op >>= f).log exec env s) := by
  rw [Prog.perform_bind, Prog.log_call, hexec, ← List.singleton_append, sends_append, List.mem_append]
  exact .inr h

/-- A signaling request that passes all the checks is forwarded to the other participant. -/
theorem sends_handleRequest (env : Env) (h : InOrder s fun _ => .quiet) (hname : (s.connections c).username ≠ [])
    (hforwards : Forwards s (s.connections c).username request) :
    ∃ connection, (s.connections connection).username = fieldOrEmpty request "to" ∧
      (connection, .signaling (fieldOrEmpty request "type") (s.connections c).username
        (fieldOrEmpty request "to") (fieldOrEmpty request "call_id")
        (ascii (payloadName (fieldOrEmpty request "type"))) (pastedPayload request)) ∈
          sends ((handleRequest c request).log exec env s) := by
  obtain ⟨htype, hto, hid, hself, hraw, hvalid⟩ := hforwards
  obtain ⟨call, hcall, -, hbetween, -⟩ :=
    (CallManager.validateSignaling_eq_none h.calls.consistent).mp hvalid
  obtain ⟨connection, hfound⟩ := h.participant_online hcall hbetween.right_mem
  have hinvite : fieldOrEmpty request "type" ≠ ascii "call_invite" := by
    intro heq
    rw [heq] at htype
    exact absurd htype (by decide)
  refine ⟨connection, h.username_eq hfound, ?_⟩
  rw [handleRequest_of_callType (ownKeys_of_signaling htype).1, handleCallRequest, Prog.log_bind, sends_append,
    List.mem_append, run_requireLoggedIn, if_neg hname]
  refine .inr ?_
  dsimp only
  rw [if_neg (by simp [hto]), if_neg (by simp [hid]), if_neg hself, if_neg hinvite, if_pos htype,
    handleSignaling, if_neg (not_not.mpr hraw)]
  have hexec : exec env (.validateSignaling (s.connections c).username (fieldOrEmpty request "to")
      (fieldOrEmpty request "call_id") (fieldOrEmpty request "type")) s = (none, s) :=
    Prod.ext hvalid rfl
  refine mem_sends_act hexec ?_
  exact mem_sends_act (exec_userFind hfound) (List.mem_singleton_self _)

end

/-- **The lines that a request makes the server send to others are events and nothing else, exactly
when the request is no signaling request that is forwarded, or pastes one object without a newline.** -/
theorem sent_lines_are_events_iff (storage : ChatStorage) {s : ServerState}
    (hserial : Serial server (.initial storage) s) {c : Conn} {line : Bytes} {request : JsonObject}
    (hadmits : admits s c (.reaction (.dispatch line request)))
    (hname : (s.connections c).username ≠ []) (env : Env) :
    (∀ out ∈ sends (actions env c (.reaction (.dispatch line request)) s), out.1 ≠ c →
      ∃ spec, eventSpec s (s.connections c).username request = some spec ∧
        EventLine spec (s.connections c).username (s.connections out.1).username out.2.line) ↔
    (Forwards s (s.connections c).username request → OneObject (pastedPayload request)) := by
  have hinOrder : InOrder s fun _ => .quiet := Serial.inOrder hserial
  constructor
  · intro hevents hforwards
    obtain ⟨connection, hto, hsent⟩ := sends_handleRequest env hinOrder hname hforwards
    have hother : connection ≠ c := by
      rintro rfl
      exact hforwards.2.2.2.1 hto.symm
    obtain ⟨hcall, hkeys, hpayload⟩ := ownKeys_of_signaling hforwards.1
    obtain ⟨spec, hspec, hline⟩ := hevents _ hsent hother
    rw [eventSpec_of_callType hcall, hkeys] at hspec
    obtain rfl := Option.some.inj hspec
    rw [hto] at hline
    exact (eventLine_buildSignalingEvent_iff hpayload hforwards.2.2.2.2.1).mp hline
  · intro hone out hout hother
    exact (announces_handleRequest hinOrder request out hout hother).event hone

/-- Alice's offer to bob in the call `c1`. -/
def offer (sdp : Bytes) : JsonObject :=
  ((((∅ : JsonObject).insert (ascii "type") (ascii "webrtc_offer")).insert (ascii "to")
    (ascii "bob")).insert (ascii "call_id") (ascii "c1")).insert (ascii "sdp") sdp

theorem talking_reachable : Serial server (.initial .empty) talking :=
  Serial.serve1 (Serial.serve1 aliceAndBob_reachable (admits_request (by decide +kernel) _))
    (admits_request (by decide +kernel) _)

/-- An empty object is forwarded to bob, as an event. -/
theorem empty_offer_is_event :
    (2, .signaling (ascii "webrtc_offer") (ascii "alice") (ascii "bob") (ascii "c1") (ascii "sdp")
        (ascii "{}")) ∈ sends (actions ⟨0, true⟩ 1 (.request (offer (ascii "{}"))) talking) ∧
      ∀ out ∈ sends (actions ⟨0, true⟩ 1 (.request (offer (ascii "{}"))) talking), out.1 ≠ 1 →
        ∃ spec, eventSpec talking (talking.connections 1).username (offer (ascii "{}")) = some spec ∧
          EventLine spec (talking.connections 1).username (talking.connections out.1).username
            out.2.line := by
  have hadmits : admits talking 1 (.request (offer (ascii "{}"))) :=
    admits_request (by decide +kernel) _
  have hpasted : pastedPayload (offer (ascii "{}")) = ascii "{}" := by decide +kernel
  refine ⟨by decide +kernel, (sent_lines_are_events_iff .empty talking_reachable hadmits
    (by decide +kernel) ⟨0, true⟩).mpr fun _ => ?_⟩
  rw [hpasted]
  exact ⟨by decide, ascii "{}", [], rfl, .emptyObject (w := []) nofun, nofun⟩

/-- The offer that forges a sender. -/
def forgedOffer : JsonObject := offer (ascii "{},\"from\":\"admin\"")

/-- The line that the server makes of it. -/
def forgedLine : Outgoing :=
  .signaling (ascii "webrtc_offer") (ascii "alice") (ascii "bob") (ascii "c1") (ascii "sdp")
    (ascii "{},\"from\":\"admin\"")

/-- What bob reads. -/
theorem parse_forgedLine : ∃ object pos, parseJsonObject forgedLine.line.dropLast = .ok object pos ∧
    object[ascii "from"]? = some (ascii "admin") := by
  have hraw : ascii "{},\"from\":\"admin\"" =
      ascii "{}" ++ comma :: (quoted (ascii "from") ++ colon :: quoted (ascii "admin")) := by decide
  have hbody : forgedLine.line.dropLast = signalingBody (ascii "webrtc_offer") (ascii "alice")
      (ascii "bob") (ascii "c1") (ascii "sdp")
      (ascii "{}" ++ comma :: (quoted (ascii "from") ++ colon :: quoted (ascii "admin"))) := by
    rw [forgedLine, Outgoing.line, buildSignalingEvent_eq, List.dropLast_concat, hraw]
  rw [hbody]
  exact parse_injected (.emptyObject (w := []) nofun)

/-- **A forged sender.**  In her call with bob, alice sends an offer whose description is the string
`{},"from":"admin"`.  In the line that the server sends to bob, the sender is `admin`. -/
theorem forged_sender :
    Serial server (.initial .empty) talking ∧ admits talking 1 (.request forgedOffer) ∧
      (talking.connections 1).username = ascii "alice" ∧
      ∃ out ∈ sends (actions ⟨0, true⟩ 1 (.request forgedOffer) talking), out.1 ≠ 1 ∧
        (talking.connections out.1).username = ascii "bob" ∧
        (∃ object pos, parseJsonObject out.2.line.dropLast = .ok object pos ∧
          object[ascii "from"]? = some (ascii "admin")) ∧
        ∀ spec, ¬ EventLine spec (ascii "alice") (ascii "bob") out.2.line := by
  refine ⟨talking_reachable, admits_request (by decide +kernel) _, by decide +kernel,
    ⟨2, forgedLine⟩, by decide +kernel, by decide, by decide +kernel, parse_forgedLine, ?_⟩
  rintro spec ⟨body, object, pos, bs, hline, -, hparse, -, hfrom, -⟩
  have hbody : forgedLine.line.dropLast = body := by
    rw [show forgedLine.line = body ++ [newline] from hline, List.dropLast_concat]
  obtain ⟨forged, pos', hforged, hadmin⟩ := parse_forgedLine
  rw [hbody, hparse] at hforged
  obtain ⟨rfl, -⟩ := Scan.ok.inj hforged
  rw [hadmin] at hfrom
  exact absurd hfrom (by decide)

end ChatService
