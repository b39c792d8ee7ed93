import ChatService.Client.CallContract
import ChatService.Server.SentEvents

/-!
# How the server serves a call message of a client

A request about a call is read by `handleCallRequest`, in a state in which no other handler is under way.
`Served` says what comes of it: the request is refused with a notice to the client, or the calls change and
one message goes to the other participant.  `Granted` says when a request is not refused.
-/

namespace ChatService

open AtomicProgram Byte

/-! ### Messages, as the server reads and writes them -/

/-- The request that a client writes. -/
def ClientMessage.object (m : ClientMessage) : JsonObject :=
  let base := (((∅ : JsonObject).insert (ascii "type") m.type.name).insert (ascii "to")
    m.target).insert (ascii "call_id") m.callId
  match m.type with
  | .invite => base.insert (ascii "media") m.payload
  | .reject => base.insert (ascii "reason") m.payload
  | .offer => base.insert (ascii "sdp") m.payload
  | .answer => base.insert (ascii "sdp") m.payload
  | .candidate => base.insert (ascii "candidate") m.payload
  | _ => base

/-- `SERVER_TYPES`. -/
def NoticeType.name : NoticeType → Bytes
  | event type => type.name
  | busy => ascii "call_busy"
  | error => ascii "call_error"

/-- `CALL_MESSAGE_TYPES`. -/
def callMessageTypes : List NoticeType :=
  [.event .invite, .event .accept, .event .reject, .busy, .event .cancel, .event .hangup,
    .event .timeout, .error, .event .offer, .event .answer, .event .candidate]

def noticeType? (name : Bytes) : Option NoticeType := callMessageTypes.find? fun t => t.name = name

theorem noticeType?_name (type : NoticeType) : noticeType? type.name = some type := by
  cases type with
  | busy => rfl
  | error => rfl
  | event type => cases type <;> rfl

/-- What a client reads of a line about a call. -/
def Outgoing.serverMessage? : Outgoing → Option ServerMessage
  | json object =>
    (noticeType? (fieldOrEmpty object "type")).map fun type =>
      ⟨type, fieldOrEmpty object "from", fieldOrEmpty object "call_id",
        fieldOrEmpty object "candidate"⟩
  | signaling type username _ callId payloadName rawPayload =>
    (noticeType? type).map fun type =>
      ⟨type, username, callId, if payloadName = ascii "candidate" then rawPayload else []⟩
  | _ => none

/-- What the user `u` is sent about calls. -/
def received (s : ServerState) (u : Bytes) (log : List (ServerState × Event Op Op.Response)) :
    List ServerMessage :=
  (sends log).filterMap fun out =>
    if (s.connections out.1).username = u then out.2.serverMessage? else none

section

variable {m : ClientMessage}

theorem fieldOrEmpty_object (m : ClientMessage) : fieldOrEmpty m.object "type" = m.type.name ∧
    fieldOrEmpty m.object "to" = m.target ∧ fieldOrEmpty m.object "call_id" = m.callId := by
  rw [ClientMessage.object]
  cases m.type <;>
    simp (disch := decide) only [fieldOrEmpty_insert_self, fieldOrEmpty_insert_of_ne, and_self]

theorem isCallType_name (type : CallType) : isCallType type.name = true := by
  cases type <;> decide

theorem isSignalingType_name (type : CallType) : isSignalingType type.name = true ↔
    type = .offer ∨ type = .answer ∨ type = .candidate := by
  cases type <;> decide

theorem fieldOrEmpty_payload (h : m.type = .offer ∨ m.type = .answer ∨ m.type = .candidate) :
    fieldOrEmpty m.object (payloadName m.type.name) = m.payload := by
  rw [ClientMessage.object]
  rcases h with h | h | h
  · rw [h]
    exact fieldOrEmpty_insert_self ..
  · rw [h]
    exact fieldOrEmpty_insert_self ..
  · rw [h]
    exact fieldOrEmpty_insert_self ..

end

/-! ### What comes of a request -/

/-- The request of `u` passes the checks and is about a call that it fits. -/
def Granted (calls : CallManager) (u : Bytes) (m : ClientMessage) : Prop :=
  isValidName m.target = true ∧ isValidCallId m.callId = true ∧ m.target ≠ u ∧
    match m.type with
    | .invite => False
    | .accept => calls.calls[m.callId]? = some ⟨m.target, u, false⟩
    | .reject => calls.calls[m.callId]? = some ⟨m.target, u, false⟩
    | .cancel => calls.calls[m.callId]? = some ⟨u, m.target, false⟩
    | .timeout => calls.calls[m.callId]? = some ⟨u, m.target, false⟩
    | .hangup => ∃ call, calls.calls[m.callId]? = some call ∧ call.accepted = true ∧
        call.between u m.target
    | _ => m.payload.head? = some lbrace ∧ ∃ call, calls.calls[m.callId]? = some call ∧
        call.accepted = true ∧ call.between u m.target ∧
        (m.type = .offer → call.caller = u) ∧ (m.type = .answer → call.callee = u)

section

variable {calls : CallManager} {u : Bytes} {m : ClientMessage}

theorem not_granted_of_invite (htype : m.type = .invite) : ¬ Granted calls u m := by
  intro h
  have hcall := h.2.2.2
  rw [htype] at hcall
  exact hcall

/-- What only the callee may ask for is asked for a pending call to the user. -/
theorem Granted.to_callee (h : Granted calls u m) (htype : m.type = .accept ∨ m.type = .reject) :
    calls.calls[m.callId]? = some ⟨m.target, u, false⟩ := by
  have hcall := h.2.2.2
  rcases htype with htype | htype
  · rw [htype] at hcall
    exact hcall
  · rw [htype] at hcall
    exact hcall

/-- What only the caller may ask for is asked for a pending call of the user. -/
theorem Granted.of_caller (h : Granted calls u m) (htype : m.type = .cancel ∨ m.type = .timeout) :
    calls.calls[m.callId]? = some ⟨u, m.target, false⟩ := by
  have hcall := h.2.2.2
  rcases htype with htype | htype
  · rw [htype] at hcall
    exact hcall
  · rw [htype] at hcall
    exact hcall

/-- A call that is hung up is active. -/
theorem Granted.active (h : Granted calls u m) (htype : m.type = .hangup) :
    ∃ call, calls.calls[m.callId]? = some call ∧ call.accepted = true ∧ call.between u m.target := by
  have hcall := h.2.2.2
  rw [htype] at hcall
  exact hcall

end

/-- What the server does about a request of `u`: the calls afterwards, and who is told what. -/
inductive Served (calls : CallManager) (u : Bytes) (m : ClientMessage) :
    CallManager → Bytes → ServerMessage → Prop where
  | refused {type : NoticeType} {sender candidate : Bytes} : type = .busy ∨ type = .error →
    ¬ Granted calls u m → Served calls u m calls u ⟨type, sender, m.callId, candidate⟩
  | invited {candidate : Bytes} : m.type = .invite → calls.calls[m.callId]? = none →
    m.target ≠ u → isValidName m.target = true → isValidCallId m.callId = true →
    Served calls u m (calls.withCall u m.target m.callId) m.target
      ⟨.event .invite, u, m.callId, candidate⟩
  | accepted {candidate : Bytes} : m.type = .accept →
    calls.calls[m.callId]? = some ⟨m.target, u, false⟩ →
    Served calls u m (calls.withAccepted m.target u m.callId) m.target
      ⟨.event .accept, u, m.callId, candidate⟩
  | rejected {candidate : Bytes} : m.type = .reject →
    calls.calls[m.callId]? = some ⟨m.target, u, false⟩ →
    Served calls u m (calls.without m.callId ⟨m.target, u, false⟩) m.target
      ⟨.event .reject, u, m.callId, candidate⟩
  | cancelled {candidate : Bytes} : m.type = .cancel ∨ m.type = .timeout →
    calls.calls[m.callId]? = some ⟨u, m.target, false⟩ →
    Served calls u m (calls.without m.callId ⟨u, m.target, false⟩) m.target
      ⟨.event m.type, u, m.callId, candidate⟩
  | hungUp {call : CallRecord} {candidate : Bytes} : m.type = .hangup →
    calls.calls[m.callId]? = some call → call.accepted = true → call.between u m.target →
    Served calls u m (calls.without m.callId call) m.target
      ⟨.event .hangup, u, m.callId, candidate⟩
  | forwarded {call : CallRecord} {candidate : Bytes} :
    m.type = .offer ∨ m.type = .answer ∨ m.type = .candidate →
    calls.calls[m.callId]? = some call → call.accepted = true → call.between u m.target →
    Served calls u m calls m.target ⟨.event m.type, u, m.callId, candidate⟩

/-! ### Following the handler -/

/-- Run from `s`, the handler leaves these calls, and only `recipient` is told anything about calls. -/
structure Delivers {α : Type} (env : Env) (p : Handler α) (s : ServerState) (calls : CallManager)
    (recipient : Bytes) (message : ServerMessage) : Prop where
  calls : (p.run exec env s).2.callManager = calls
  users : (p.run exec env s).2.userManager = s.userManager
  connections : (p.run exec env s).2.connections = s.connections
  heard : ∀ v, received s v (p.log exec env s) = if v = recipient then [message] else []

/-- Run from `s`, the handler serves the request `m` of `u`. -/
def Handles {α : Type} (env : Env) (p : Handler α) (s : ServerState) (u : Bytes) (m : ClientMessage) :
    Prop :=
  ∃ calls recipient message, Served s.callManager u m calls recipient message ∧
    Delivers env p s calls recipient message

section

variable {α β : Type} {env : Env} {s : ServerState} {calls : CallManager} {recipient : Bytes}
  {message : ServerMessage} {u : Bytes} {m : ClientMessage} {c : Conn}

theorem received_append (s : ServerState) (u : Bytes)
    (log log' : List (ServerState × Event Op Op.Response)) :
    received s u (log ++ log') = received s u log ++ received s u log' := by
  rw [received, sends_append, List.filterMap_append]
  rfl

/-- Something that sends nothing and leaves the users alone, and then the rest. -/
theorem Delivers.bind {p : Handler α} {f : α → Handler β} {r : α} {calls' : CallManager}
    (hrun : p.run exec env s = (r, { s with callManager := calls' }))
    (hsilent : sends (p.log exec env s) = [])
    (h : Delivers env (f r) { s with callManager := calls' } calls recipient message) :
    Delivers env (p >>= f) s calls recipient message := by
  have hrest : (p >>= f).run exec env s = (f r).run exec env { s with callManager := calls' } := by
    rw [Prog.run_bind, hrun]
  refine ⟨?_, ?_, ?_, fun v => ?_⟩
  · rw [hrest]
    exact h.calls
  · rw [hrest]
    exact h.users
  · rw [hrest]
    exact h.connections
  · have hnone : received s v (p.log exec env s) = [] := by
      rw [received, hsilent]
      rfl
    rw [Prog.log_bind, received_append, hnone, hrun, List.nil_append]
    exact h.heard v

/-- The users are asked where `v` is. -/
theorem Delivers.userFind {v : Bytes} {found : Option Conn} {f : Option Conn → Handler α}
    (hfound : s.userManager.users[v]? = found) (h : Delivers env (f found) s calls recipient message) :
    Delivers env (act (.userFind v) >>= f) s calls recipient message := by
  have hrun : exec env (.userFind v) s = (found, s) := exec_userFind hfound
  exact Delivers.bind hrun rfl h

/-- A message is sent, and that is all. -/
theorem delivers_send {payload : Outgoing} (hname : (s.connections c).username = recipient)
    (hpayload : payload.serverMessage? = some message) :
    Delivers env (act (.send c payload)) s s.callManager recipient message := by
  refine ⟨rfl, rfl, rfl, fun v => ?_⟩
  show List.filterMap _ [(c, payload)] = _
  by_cases hv : v = recipient
  · rw [if_pos hv, List.filterMap_cons_some (b := message)]
    · rfl
    · rw [if_pos (hname.trans hv.symm), hpayload]
  · rw [if_neg hv, List.filterMap_cons_none]
    · rfl
    · exact if_neg fun h => hv (h.symm.trans hname)

/-- What an object about a call is read as. -/
theorem serverMessage?_json {object : JsonObject} {type : NoticeType} {callId : Bytes}
    (htype : fieldOrEmpty object "type" = type.name) (hid : fieldOrEmpty object "call_id" = callId) :
    (Outgoing.json object).serverMessage? =
      some ⟨type, fieldOrEmpty object "from", callId, fieldOrEmpty object "candidate"⟩ := by
  rw [Outgoing.serverMessage?, htype, noticeType?_name, hid]
  rfl

theorem inviteEvent_fields (username target callId : Bytes) :
    let event := (makeCallEvent (ascii "call_invite") username target callId []).insert (ascii "media")
      (ascii "video")
    fieldOrEmpty event "type" = CallType.invite.name ∧ fieldOrEmpty event "from" = username ∧
      fieldOrEmpty event "call_id" = callId := by
  obtain ⟨htype, hfrom, -, hid⟩ :=
    makeCallEvent_fields (ascii "call_invite") username target callId []
  simp (disch := decide) only [fieldOrEmpty_insert_of_ne]
  exact ⟨htype, hfrom, hid⟩

/-- An event about a call is sent to `v`, and that is all. -/
theorem delivers_event (env : Env) {v x callId : Bytes} {type : CallType} {object : JsonObject}
    (hname : (s.connections c).username = v) (htype : fieldOrEmpty object "type" = type.name)
    (hfrom : fieldOrEmpty object "from" = x) (hid : fieldOrEmpty object "call_id" = callId) :
    ∃ candidate, Delivers env (act (.send c (.json object))) s s.callManager v
      ⟨.event type, x, callId, candidate⟩ := by
  have hmessage : (Outgoing.json object).serverMessage? =
      some ⟨.event type, x, callId, fieldOrEmpty object "candidate"⟩ := by
    rw [← hfrom]
    exact serverMessage?_json htype hid
  exact ⟨_, delivers_send hname hmessage⟩

/-- A notice to the client is all that comes of a request that is not granted. -/
theorem handles_refusal (hname : (s.connections c).username = u) {type : NoticeType}
    (htype : type = .busy ∨ type = .error) (reason : Bytes) (hgranted : ¬ Granted s.callManager u m) :
    Handles env (sendJson c (makeCallReply type.name u m.callId reason)) s u m := by
  have hid : fieldOrEmpty (makeCallReply type.name u m.callId reason) "call_id" = m.callId := by
    simp (disch := decide) only [makeCallReply, fieldOrEmpty_insert_self, fieldOrEmpty_insert_of_ne]
  exact ⟨_, _, _, .refused htype hgranted,
    delivers_send hname (serverMessage?_json (type_makeCallReply ..) hid)⟩

theorem handles_sendCallError (hname : (s.connections c).username = u) (reason : Bytes)
    (hgranted : ¬ Granted s.callManager u m) :
    Handles env (sendCallError c u m.callId reason) s u m :=
  handles_refusal hname (.inr rfl) reason hgranted

/-- Something that sends nothing and changes nothing comes first. -/
theorem Handles.bind {p : Handler α} {f : α → Handler β} {r : α}
    (hrun : p.run exec env s = (r, s)) (hsilent : sends (p.log exec env s) = [])
    (h : Handles env (f r) s u m) : Handles env (p >>= f) s u m := by
  obtain ⟨calls, recipient, message, hserved, hdelivers⟩ := h
  exact ⟨calls, recipient, message, hserved, hdelivers.bind hrun hsilent⟩

theorem Handles.userFind {v : Bytes} {found : Option Conn} {f : Option Conn → Handler α}
    (hfound : s.userManager.users[v]? = found) (h : Handles env (f found) s u m) :
    Handles env (act (.userFind v) >>= f) s u m := by
  have hrun : exec env (.userFind v) s = (found, s) := exec_userFind hfound
  exact Handles.bind hrun rfl h

/-! ### The handlers -/

theorem handles_handleInvite (h : InOrder s fun _ => .quiet) (hname : (s.connections c).username = u)
    (htype : m.type = .invite) (htarget : isValidName m.target = true)
    (hid : isValidCallId m.callId = true) (hself : m.target ≠ u) (request : JsonObject) :
    Handles env (handleInvite c request u m.target m.callId) s u m := by
  have hgranted : ¬ Granted s.callManager u m := not_granted_of_invite htype
  rw [handleInvite]
  split_ifs
  · exact handles_sendCallError hname _ hgranted
  cases hfound : s.userManager.users[m.target]? with
  | none =>
    refine Handles.userFind hfound ?_
    exact handles_sendCallError hname _ hgranted
  | some connection =>
    refine Handles.userFind hfound ?_
    cases hstart : (s.callManager.startCall u m.target m.callId).1 with
    | some reason =>
      have hsame := CallManager.startCall_eq_some hstart
      have hrun : exec env (.startCall u m.target m.callId) s = (some reason, s) := by
        show s.onCalls _ = _
        rw [ServerState.onCalls, hstart, hsame]
      refine Handles.bind (r := some reason) hrun rfl ?_
      dsimp only
      split_ifs
      · exact handles_refusal hname (.inl rfl) reason hgranted
      · exact handles_sendCallError hname _ hgranted
    | none =>
      obtain ⟨hfree, hcalls⟩ := CallManager.startCall_eq_none hstart
      have hrun : exec env (.startCall u m.target m.callId) s =
          (none, { s with callManager := s.callManager.withCall u m.target m.callId }) := by
        show s.onCalls _ = _
        rw [ServerState.onCalls, hstart, hcalls]
      let s' : ServerState := { s with callManager := s.callManager.withCall u m.target m.callId }
      obtain ⟨hevent, hfrom, hcallId⟩ := inviteEvent_fields u m.target m.callId
      -- the target is still there at the second look-up
      obtain ⟨candidate, hsend⟩ := delivers_event (s := s') env (h.username_eq hfound) hevent hfrom hcallId
      exact ⟨_, _, _, .invited htype hfree hself htarget hid,
        Delivers.bind (r := none) hrun rfl (Delivers.userFind hfound hsend)⟩

theorem name_eq_invite {type : CallType} : type.name = ascii "call_invite" ↔ type = .invite := by
  cases type <;> decide

theorem offer_of_name {type : CallType} (h : type.name = ascii "webrtc_offer") : type = .offer := by
  revert h
  cases type <;> decide

theorem answer_of_name {type : CallType} (h : type.name = ascii "webrtc_answer") : type = .answer := by
  revert h
  cases type <;> decide

/-- What a granted signaling request asks for. -/
theorem Granted.signaling (h : Granted s.callManager u m)
    (htype : m.type = .offer ∨ m.type = .answer ∨ m.type = .candidate) :
    m.payload.head? = some lbrace ∧ ∃ call, s.callManager.calls[m.callId]? = some call ∧
      call.accepted = true ∧ call.between u m.target ∧ (m.type = .offer → call.caller = u) ∧
      (m.type = .answer → call.callee = u) := by
  have hgranted := h.2.2.2
  rcases htype with htype | htype | htype
  · rw [htype] at hgranted ⊢
    exact hgranted
  · rw [htype] at hgranted ⊢
    exact hgranted
  · rw [htype] at hgranted ⊢
    exact hgranted

theorem handles_handleSignaling (h : InOrder s fun _ => .quiet)
    (hname : (s.connections c).username = u)
    (htype : m.type = .offer ∨ m.type = .answer ∨ m.type = .candidate) :
    Handles env (handleSignaling c m.object m.type.name u m.target m.callId) s u m := by
  rw [handleSignaling, fieldOrEmpty_payload htype]
  split_ifs with hbrace
  · refine handles_sendCallError hname _ fun hgranted => hbrace ?_
    exact (hgranted.signaling htype).1
  cases hvalid : s.callManager.validateSignaling u m.target m.callId m.type.name with
  | some reason =>
    have hrun : exec env (.validateSignaling u m.target m.callId m.type.name) s = (some reason, s) :=
      Prod.ext hvalid rfl
    refine Handles.bind hrun rfl (handles_sendCallError hname _ fun hgranted => ?_)
    obtain ⟨-, call, hid, haccepted, hbetween, hoffer, hanswer⟩ := hgranted.signaling htype
    have hnone := (CallManager.validateSignaling_eq_none h.calls.consistent).mpr ⟨call, hid, haccepted,
      hbetween, fun ht => hoffer (offer_of_name ht), fun ht => hanswer (answer_of_name ht)⟩
    exact absurd (hvalid.symm.trans hnone) (Option.some_ne_none reason)
  | none =>
    have hrun : exec env (.validateSignaling u m.target m.callId m.type.name) s = (none, s) :=
      Prod.ext hvalid rfl
    obtain ⟨call, hid, haccepted, hbetween, -, -⟩ :=
      (CallManager.validateSignaling_eq_none h.calls.consistent).mp hvalid
    obtain ⟨connection, hfound⟩ := h.participant_online hid hbetween.right_mem
    refine Handles.bind hrun rfl (Handles.userFind hfound ?_)
    have hmessage : (Outgoing.signaling m.type.name u m.target m.callId
        (ascii (payloadName m.type.name)) m.payload).serverMessage? = some ⟨.event m.type, u, m.callId,
          if ascii (payloadName m.type.name) = ascii "candidate" then m.payload else []⟩ := by
      rw [Outgoing.serverMessage?, show m.type.name = (NoticeType.event m.type).name from rfl,
        noticeType?_name]
      rfl
    exact ⟨_, _, _, .forwarded htype hid haccepted hbetween,
      delivers_send (h.username_eq hfound) hmessage⟩

/-- What `callOperation` does: it refuses what is not granted, or it changes the calls as it is asked to. -/
def Decides (env : Env) (p : Handler (Option Bytes)) (s : ServerState) (u : Bytes) (m : ClientMessage) :
    Prop :=
  (∃ reason, p.run exec env s = (some reason, s) ∧ ¬ Granted s.callManager u m) ∨
    ∃ calls call, p.run exec env s = (none, { s with callManager := calls }) ∧
      s.callManager.calls[m.callId]? = some call ∧ call.between u m.target ∧
      ∀ candidate, Served s.callManager u m calls m.target ⟨.event m.type, u, m.callId, candidate⟩

/-- An operation that asks for one pending call only. -/
theorem decides_of_pending {p : Handler (Option Bytes)} {result : Option Bytes × CallManager}
    {call : CallRecord} {reason : Bytes} (hp : p.run exec env s = s.onCalls result)
    (hresult : result = if s.callManager.calls[m.callId]? = some call then (none, calls)
      else (some reason, s.callManager))
    (hgranted : Granted s.callManager u m → s.callManager.calls[m.callId]? = some call)
    (hbetween : call.between u m.target)
    (hserved : s.callManager.calls[m.callId]? = some call → ∀ candidate,
      Served s.callManager u m calls m.target ⟨.event m.type, u, m.callId, candidate⟩) :
    Decides env p s u m := by
  by_cases hid : s.callManager.calls[m.callId]? = some call
  · rw [if_pos hid] at hresult
    exact .inr ⟨calls, call, by rw [hp, hresult]; rfl, hid, hbetween, hserved hid⟩
  · rw [if_neg hid] at hresult
    exact .inl ⟨reason, by rw [hp, hresult]; rfl, fun h => hid (hgranted h)⟩

theorem decides_hangupCall (hm : s.callManager.Consistent) (htype : m.type = .hangup) :
    Decides env (act (.hangupCall u m.target m.callId)) s u m := by
  by_cases hactive : ∃ call, s.callManager.calls[m.callId]? = some call ∧ call.accepted = true ∧
      call.between u m.target
  · obtain ⟨call, hid, haccepted, hbetween⟩ := hactive
    have hrun : exec env (.hangupCall u m.target m.callId) s =
        (none, { s with callManager := s.callManager.without m.callId call }) :=
      congrArg s.onCalls (CallManager.hangupCall_of_active hm hid haccepted hbetween)
    refine .inr ⟨_, call, hrun, hid, hbetween, fun candidate => ?_⟩
    rw [htype]
    exact .hungUp htype hid haccepted hbetween
  · have hrun : exec env (.hangupCall u m.target m.callId) s = (some (ascii "invalid_active_call"), s) :=
      congrArg s.onCalls (CallManager.hangupCall_of_not_active hm fun call hid haccepted hbetween =>
        hactive ⟨call, hid, haccepted, hbetween⟩)
    exact .inl ⟨_, hrun, fun hgranted => hactive (hgranted.active htype)⟩

/-- **The server does what a call message asks for if it fits the call, and refuses it otherwise.** -/
theorem decides_callOperation (env : Env) (hm : s.callManager.Consistent) (hinvite : m.type ≠ .invite)
    (hsignaling : ¬ (m.type = .offer ∨ m.type = .answer ∨ m.type = .candidate)) :
    Decides env (callOperation m.type.name u m.target m.callId) s u m := by
  cases htype : m.type with
  | invite => exact absurd htype hinvite
  | offer => exact absurd (.inl htype) hsignaling
  | answer => exact absurd (.inr (.inl htype)) hsignaling
  | candidate => exact absurd (.inr (.inr htype)) hsignaling
  | accept =>
    refine decides_of_pending (p := callOperation CallType.accept.name u m.target m.callId) rfl
      (CallManager.acceptCall_eq hm u m.target m.callId) (fun hgranted => hgranted.to_callee (.inl htype))
      (.inr ⟨rfl, rfl⟩) fun hid candidate => ?_
    rw [htype]
    exact .accepted htype hid
  | reject =>
    refine decides_of_pending (p := callOperation CallType.reject.name u m.target m.callId) rfl
      (CallManager.rejectCall_eq hm u m.target m.callId) (fun hgranted => hgranted.to_callee (.inr htype))
      (.inr ⟨rfl, rfl⟩) fun hid candidate => ?_
    rw [htype]
    exact .rejected htype hid
  | cancel =>
    exact decides_of_pending (p := callOperation CallType.cancel.name u m.target m.callId) rfl
      (CallManager.cancelCall_eq hm u m.target m.callId) (fun hgranted => hgranted.of_caller (.inl htype))
      (.inl ⟨rfl, rfl⟩) fun hid candidate => .cancelled (.inl htype) hid
  | timeout =>
    exact decides_of_pending (p := callOperation CallType.timeout.name u m.target m.callId) rfl
      (CallManager.cancelCall_eq hm u m.target m.callId) (fun hgranted => hgranted.of_caller (.inr htype))
      (.inl ⟨rfl, rfl⟩) fun hid candidate => .cancelled (.inr htype) hid
  | hangup => exact decides_hangupCall hm htype

/-- A refusal goes to the requester; what is granted is announced to the other participant. -/
theorem handles_handleCallAction (h : InOrder s fun _ => .quiet)
    (hname : (s.connections c).username = u) (hinvite : m.type ≠ .invite)
    (hsignaling : ¬ (m.type = .offer ∨ m.type = .answer ∨ m.type = .candidate)) (request : JsonObject) :
    Handles env (handleCallAction c request m.type.name u m.target m.callId) s u m := by
  have hsilent : sends ((callOperation m.type.name u m.target m.callId).log exec env s) = [] := by
    refine List.eq_nil_iff_forall_not_mem.mpr fun out hout => ?_
    obtain ⟨entry, hentry, hop⟩ := mem_sends.mp hout
    exact ((callOperation_silent ..).log env hentry).1 _ _ hop
  rcases decides_callOperation env h.calls.consistent hinvite hsignaling with
    ⟨reason, hrun, hgranted⟩ | ⟨calls, call, hrun, hid, hbetween, hserved⟩
  · exact Handles.bind hrun hsilent (handles_sendCallError hname reason hgranted)
  · obtain ⟨connection, hfound⟩ := h.participant_online hid hbetween.right_mem
    obtain ⟨htype, hfrom, -, hcallId⟩ :=
      makeCallEvent_fields m.type.name u m.target m.callId (eventReason m.type.name request)
    let s' : ServerState := { s with callManager := calls }
    obtain ⟨candidate, hsend⟩ :=
      delivers_event (s := s') env (h.username_eq hfound) htype hfrom hcallId
    exact ⟨_, _, _, hserved candidate, Delivers.bind hrun hsilent (Delivers.userFind hfound hsend)⟩

/-- **Serving a call message of a user who is online.** -/
theorem handles_handleRequest (env : Env) (m : ClientMessage) (h : InOrder s fun _ => .quiet)
    (honline : s.userManager.users[u]? = some c) : Handles env (handleRequest c m.object) s u m := by
  obtain ⟨htype, htarget, hid⟩ := fieldOrEmpty_object m
  have hname : (s.connections c).username = u := h.username_eq honline
  have hne : (s.connections c).username ≠ [] := by
    rw [hname]
    exact ne_nil_of_isValidName (h.identity.valid honline)
  rw [handleRequest_of_callType (htype ▸ isCallType_name m.type), handleCallRequest]
  have hrun : (requireLoggedIn c).run exec env s = (some u, s) := by
    rw [run_requireLoggedIn, if_neg hne, hname]
  have hsilent : sends ((requireLoggedIn c).log exec env s) = [] := by
    show sends (_ :: Prog.log exec env (if (s.connections c).username = [] then _ else _) s) = []
    rw [if_neg hne]
    rfl
  refine Handles.bind hrun hsilent ?_
  dsimp only
  rw [htype, htarget, hid]
  split_ifs with hvalid hcallId hself hinvite hsignaling
  · exact handles_sendCallError hname _ fun hgranted => absurd (hvalid.symm.trans hgranted.1) (by decide)
  · exact handles_sendCallError hname _ fun hgranted => absurd (hcallId.symm.trans hgranted.2.1) (by decide)
  · exact handles_sendCallError hname _ fun hgranted => hgranted.2.2.1 hself
  · exact handles_handleInvite h hname (name_eq_invite.mp hinvite) (by simpa using hvalid)
      (by simpa using hcallId) hself _
  · exact handles_handleSignaling h hname ((isSignalingType_name _).mp hsignaling)
  · exact handles_handleCallAction h hname (fun hinvited => hinvite (name_eq_invite.mpr hinvited))
      (fun hor => hsignaling ((isSignalingType_name _).mpr hor)) _

end

end ChatService
