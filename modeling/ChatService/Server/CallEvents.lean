import ChatService.Server.Presence
import ChatService.Server.Sends

/-!
# What a handler does about the calls, and what it announces

Handlers run one after another here.  What they do about calls leaves *marks* in the log of their actions:
a call is started, a call event is sent to a user, a participant removes a call.

* `CallStep` — what a whole handler may do about the calls, with the marks it leaves.
* `does_of_answersOnly`, `does_of_tells` — most handlers do nothing about them.
* `operates_callOperation` — the five operations on a call, each with the event that announces it.
* `does_onInput` — every handler takes exactly one such step.
-/

namespace ChatService

open AtomicProgram

/-! ### Marks -/

/-- What a handler does about a call: `startCall` succeeds, an event is sent, or a participant removes
the call, in the way that the type of the ending says. -/
inductive CallMark where
  | started (caller callee callId : Bytes)
  | sent (event : CallEvent)
  | removed (user type callId : Bytes)
deriving DecidableEq

def CallMark.callId : CallMark → Bytes
  | started _ _ callId => callId
  | sent event => event.callId
  | removed _ _ callId => callId

/-- A user who leaves while calling, ringing or in a call cancels, rejects or hangs up. -/
def leavingType : CallUserState → Bytes
  | .calling => ascii "call_cancel"
  | .ringing => ascii "call_reject"
  | _ => ascii "call_hangup"

/-- The mark of an action in a state, by its response. -/
def mark (s : ServerState) : (op : Op) → op.Response → Option CallMark
  | .startCall caller callee callId, none => some (.started caller callee callId)
  | .rejectCall callee _ callId, none => some (.removed callee (ascii "call_reject") callId)
  | .cancelCall caller _ callId, none => some (.removed caller (ascii "call_cancel") callId)
  | .timeoutCall caller _ callId, none => some (.removed caller (ascii "call_timeout") callId)
  | .hangupCall username _ callId, none => some (.removed username (ascii "call_hangup") callId)
  | .removeUser username, some event =>
    some (.removed username (leavingType event.disconnectedState) event.callId)
  | .send connection payload, _ =>
    (payload.callEvent? (s.connections connection).username).map .sent
  | _, _ => none

/-- The marks in a log. -/
def marks (log : List (ServerState × Event Op Op.Response)) : List CallMark :=
  log.filterMap fun entry => mark entry.1 entry.2.op entry.2.response

theorem marks_append (log log' : List (ServerState × Event Op Op.Response)) :
    marks (log ++ log') = marks log ++ marks log' := List.filterMap_append ..

/-! ### What a handler may do about the calls -/

/-- The ways in which `x` may end a call: a pending one is cancelled or times out at the caller's side and
is rejected at the callee's, an accepted one is hung up. -/
def CallRecord.EndsBy (call : CallRecord) (x type : Bytes) : Prop :=
  if call.accepted then type = ascii "call_hangup"
  else (x = call.caller ∧ (type = ascii "call_cancel" ∨ type = ascii "call_timeout")) ∨
    (x = call.callee ∧ type = ascii "call_reject")

/-- The signaling that `x` may send in a call: only the caller offers, only the callee answers. -/
def CallRecord.Signals (call : CallRecord) (x type : Bytes) : Prop :=
  call.accepted = true ∧ isSignalingType type = true ∧
    (type = ascii "webrtc_offer" → x = call.caller) ∧
    (type = ascii "webrtc_answer" → x = call.callee)

/-- One handler, with the marks it leaves. -/
inductive CallStep (m : CallManager) : List CallMark → CallManager → Prop where
  | nothing : CallStep m [] m
  | invite {a b id : Bytes} : m.calls[id]? = none →
    CallStep m [.started a b id, .sent ⟨ascii "call_invite", a, b, id⟩] (m.withCall a b id)
  | accept {a b id : Bytes} : m.calls[id]? = some ⟨a, b, false⟩ →
    CallStep m [.sent ⟨ascii "call_accept", b, a, id⟩] (m.withAccepted a b id)
  | signal {call : CallRecord} {x y id type : Bytes} : m.calls[id]? = some call →
    call.between x y → call.Signals x type → CallStep m [.sent ⟨type, x, y, id⟩] m
  | finish {call : CallRecord} {x y id type : Bytes} : m.calls[id]? = some call →
    call.between x y → call.EndsBy x type →
    CallStep m [.removed x type id, .sent ⟨type, x, y, id⟩] (m.without id call)

/-- What `p` does from `s` on. -/
def Does {α : Type} (env : Env) (p : Handler α) (s : ServerState) : Prop :=
  CallStep s.callManager (marks (p.log exec env s)) (p.run exec env s).2.callManager

section Handlers

variable {α β : Type} {env : Env} {s : ServerState}

theorem does_ret (a : α) : Does env (.ret a : Handler α) s := .nothing

/-- An action that leaves no mark and no change of the calls. -/
theorem does_act {op : Op} {f : op.Response → Handler α} {r : op.Response} {s' : ServerState}
    (hexec : exec env op s = (r, s')) (hmark : mark s op r = none)
    (hcalls : s'.callManager = s.callManager) (h : Does env (f r) s') :
    Does env (act op >>= f) s := by
  have hmarks : marks ((act op >>= f).log exec env s) = marks ((f r).log exec env s') := by
    rw [Prog.perform_bind, Prog.log_call, hexec]
    exact List.filterMap_cons_none hmark
  rw [Does, hmarks, Prog.perform_bind, Prog.run_call, hexec, ← hcalls]
  exact h

theorem exec_userFind {u : Bytes} {found : Option Conn} (h : s.userManager.users[u]? = found) :
    exec env (.userFind u) s = (found, s) := Prod.ext h rfl

/-! ### Handlers that have nothing to do with calls -/

theorem mark_plain {c : Conn} {Q : Outgoing → Prop}
    (hQ : ∀ payload, Q payload → NoCallEvent payload) {op : Op}
    (h : op.Plain c Q) (s : ServerState) (r : op.Response) : mark s op r = none := by
  cases op with
  | send connection payload =>
    have hnone : payload.callEvent? (s.connections connection).username = none := by
      rcases h with ⟨-, h⟩ | h
      · exact h _
      · exact hQ payload h _
    show Option.map _ _ = none
    rw [hnone]
    rfl
  | startCall a b id => exact h.elim
  | rejectCall b a id => exact h.elim
  | cancelCall a b id => exact h.elim
  | timeoutCall a b id => exact h.elim
  | hangupCall x y id => exact h.elim
  | removeUser u => exact h.elim
  | _ => rfl

/-- Plain actions leave no marks and no change of the calls. -/
theorem marks_tells {c : Conn} {Q : Outgoing → Prop} {p : Handler α} (h : Tells env c Q p s)
    (hQ : ∀ payload, Q payload → NoCallEvent payload) :
    marks (p.log exec env s) = [] ∧ (p.run exec env s).2.callManager = s.callManager :=
  ⟨List.filterMap_eq_nil_iff.mpr fun entry hentry => mark_plain hQ (h entry hentry) _ _,
    Prog.run_unchanged ServerState.callManager fun entry hentry => calls_plain (h entry hentry) env _⟩

/-- A handler that only takes plain actions does nothing about the calls. -/
theorem does_of_tells {c : Conn} {Q : Outgoing → Prop} {p : Handler α} (h : Tells env c Q p s)
    (hQ : ∀ payload, Q payload → NoCallEvent payload) :
    Does env p s := by
  obtain ⟨hmarks, hcalls⟩ := marks_tells h hQ
  rw [Does, hmarks, hcalls]
  exact .nothing

theorem marks_answersOnly {c : Conn} {p : Handler α} (h : AnswersOnly c p) (env : Env)
    (s : ServerState) : marks (p.log exec env s) = [] ∧
      (p.run exec env s).2.callManager = s.callManager :=
  marks_tells (tells_of_only h) fun _ hfalse => hfalse.elim

theorem does_of_answersOnly {c : Conn} {p : Handler α} (h : AnswersOnly c p) : Does env p s :=
  does_of_tells (tells_of_only h) fun _ hfalse => hfalse.elim

/-- Answers afterwards change nothing. -/
theorem Does.bind_answers {c : Conn} {p : Handler α} {f : α → Handler β} (h : Does env p s)
    (hf : ∀ a, AnswersOnly c (f a)) : Does env (p >>= f) s := by
  obtain ⟨hmarks, hcalls⟩ := marks_answersOnly (hf (p.run exec env s).1) env (p.run exec env s).2
  rw [Does, Prog.log_bind, marks_append, hmarks, List.append_nil, Prog.run_bind, hcalls]
  exact h

/-! ### Handlers that have to do with calls -/

/-- `p` leaves these marks and these calls. -/
def Leaves (env : Env) (p : Handler α) (s : ServerState) (l : List CallMark) (m : CallManager) : Prop :=
  marks (p.log exec env s) = l ∧ (p.run exec env s).2.callManager = m

theorem Leaves.does {p : Handler α} {l : List CallMark} {m : CallManager} (h : Leaves env p s l m)
    (hstep : CallStep s.callManager l m) : Does env p s := by
  rw [Does, h.1, h.2]
  exact hstep

/-- One action, and then the rest. -/
theorem Leaves.act {op : Op} {f : op.Response → Handler α} {r : op.Response} {s' : ServerState}
    {l : List CallMark} {m : CallManager} (hexec : exec env op s = (r, s'))
    (h : Leaves env (f r) s' l m) :
    Leaves env (act op >>= f) s ((mark s op r).toList ++ l) m := by
  obtain ⟨hl, hm⟩ := h
  refine ⟨?_, ?_⟩
  · rw [Prog.perform_bind, Prog.log_call, hexec, ← hl, marks, List.filterMap_cons]
    cases mark s op r with
    | none => rfl
    | some k => rfl
  · rw [Prog.perform_bind, Prog.run_call, hexec, hm]

/-- An event is sent, and that is all. -/
theorem leaves_send {connection : Conn} {payload : Outgoing} {event : CallEvent}
    (h : payload.callEvent? (s.connections connection).username = some event) :
    Leaves env (act (.send connection payload)) s [.sent event] s.callManager := by
  refine ⟨?_, rfl⟩
  show List.filterMap _ [_] = _
  rw [List.filterMap_cons_some (b := CallMark.sent event)]
  · rfl
  · show Option.map _ _ = _
    rw [h]
    rfl

theorem callEvent?_makeCallEvent {type : Bytes} (h : isCallType type = true)
    (username target callId reason recipient : Bytes) :
    (Outgoing.json (makeCallEvent type username target callId reason)).callEvent? recipient =
      some ⟨type, username, recipient, callId⟩ := by
  obtain ⟨htype, hfrom, -, hid⟩ := makeCallEvent_fields type username target callId reason
  rw [Outgoing.callEvent?, htype, hfrom, hid, if_pos h]

theorem callEvent?_invite (username target callId recipient : Bytes) :
    (Outgoing.json ((makeCallEvent (ascii "call_invite") username target callId []).insert
      (ascii "media") (ascii "video"))).callEvent? recipient =
      some ⟨ascii "call_invite", username, recipient, callId⟩ := by
  obtain ⟨htype, hfrom, -, hid⟩ :=
    makeCallEvent_fields (ascii "call_invite") username target callId []
  have hcall : isCallType (ascii "call_invite") = true := by decide
  simp (disch := decide) only [Outgoing.callEvent?, fieldOrEmpty_insert_of_ne, htype, hfrom, hid,
    hcall, if_true]

/-- An event for a user who is online reaches the session of that name. -/
theorem leaves_event {type x y id : Bytes} {payload : Outgoing} {c : Conn}
    (hpayload : ∀ recipient, payload.callEvent? recipient = some ⟨type, x, recipient, id⟩)
    (hy : (s.connections c).username = y) :
    Leaves env (act (.send c payload)) s [.sent ⟨type, x, y, id⟩] s.callManager := by
  refine leaves_send ?_
  rw [hpayload, hy]

theorem does_handleInvite (h : InOrder s fun _ => .quiet) (connection : Conn) (request : JsonObject)
    (a b id : Bytes) : Does env (handleInvite connection request a b id) s := by
  rw [handleInvite]
  split_ifs
  · exact does_of_answersOnly (answersOnly_sendCallError ..)
  cases hfound : s.userManager.users[b]? with
  | none =>
    refine does_act (exec_userFind hfound) rfl rfl ?_
    exact does_of_answersOnly (answersOnly_sendCallError ..)
  | some c =>
    refine does_act (exec_userFind hfound) rfl rfl ?_
    cases hstart : (s.callManager.startCall a b id).1 with
    | some reason =>
      refine does_act (r := some reason) (Prod.ext hstart rfl) rfl ?_ ?_
      · exact CallManager.startCall_eq_some hstart
      · dsimp only
        split_ifs
        · exact does_of_answersOnly (answersOnly_sendCallBusy ..)
        · exact does_of_answersOnly (answersOnly_sendCallError ..)
    | none =>
      obtain ⟨hfree, heq⟩ := CallManager.startCall_eq_none hstart
      have hexec : exec env (.startCall a b id) s =
          (none, { s with callManager := s.callManager.withCall a b id }) := by
        rw [← heq, ← hstart]
        rfl
      refine Leaves.does (m := s.callManager.withCall a b id)
        (l := [.started a b id, .sent ⟨ascii "call_invite", a, b, id⟩]) ?_ (.invite hfree)
      refine Leaves.act hexec ?_
      -- the target is still there at the second look-up
      refine Leaves.act (exec_userFind hfound) ?_
      exact leaves_event (callEvent?_invite a b id) (h.username_eq hfound)

theorem does_handleSignaling (h : InOrder s fun _ => .quiet) (connection : Conn)
    (request : JsonObject) {type : Bytes} (htype : isSignalingType type = true) (x y id : Bytes) :
    Does env (handleSignaling connection request type x y id) s := by
  rw [handleSignaling]
  split_ifs
  · exact does_of_answersOnly (answersOnly_sendCallError ..)
  cases hvalid : s.callManager.validateSignaling x y id type with
  | some reason =>
    refine does_act (r := some reason) (Prod.ext hvalid rfl) rfl rfl ?_
    exact does_of_answersOnly (answersOnly_sendCallError ..)
  | none =>
    refine does_act (r := none) (Prod.ext hvalid rfl) rfl rfl ?_
    obtain ⟨call, hid, haccepted, hbetween, hoffer, hanswer⟩ :=
      (CallManager.validateSignaling_eq_none h.calls.consistent).mp hvalid
    obtain ⟨c, hc⟩ := h.participant_online hid hbetween.right_mem
    have hsignals : call.Signals x type :=
      ⟨haccepted, htype, fun ht => (hoffer ht).symm, fun ht => (hanswer ht).symm⟩
    refine Leaves.does (m := s.callManager) (l := [.sent ⟨type, x, y, id⟩]) ?_
      (.signal hid hbetween hsignals)
    refine Leaves.act (exec_userFind hc) ?_
    exact leaves_event (fun recipient => rfl) (h.username_eq hc)

/-- A single action, by what it answers. -/
theorem run_act {op : Op} {r : op.Response} {s' : ServerState} (hexec : exec env op s = (r, s')) :
    (act op).run exec env s = (r, s') ∧ marks ((act op).log exec env s) = (mark s op r).toList := by
  refine ⟨hexec, ?_⟩
  show List.filterMap _ [(s, (⟨op, (exec env op s).1⟩ : Event Op Op.Response))] = _
  rw [hexec, List.filterMap_cons]
  cases mark s op r with
  | none => rfl
  | some k => rfl

/-- What `callOperation` does: it refuses and changes nothing, or it does to the calls what the event
that is sent next announces. -/
def Operates (env : Env) (p : Handler (Option Bytes)) (s : ServerState) (type x y id : Bytes) : Prop :=
  (∃ reason, p.run exec env s = (some reason, s) ∧ marks (p.log exec env s) = []) ∨
    ∃ m call, p.run exec env s = (none, { s with callManager := m }) ∧ isCallType type = true ∧
      s.callManager.calls[id]? = some call ∧ call.between x y ∧
      CallStep s.callManager (marks (p.log exec env s) ++ [.sent ⟨type, x, y, id⟩]) m

/-- An operation that asks for one pending call only. -/
theorem operates_of_pending {p : Handler (Option Bytes)} {k : Option Bytes → Option CallMark}
    {result : Option Bytes × CallManager} {m : CallManager} {call : CallRecord}
    {type x y id reason : Bytes}
    (hp : ∀ r m, result = (r, m) → p.run exec env s = (r, { s with callManager := m }) ∧
      marks (p.log exec env s) = (k r).toList)
    (hk : ∀ reason, k (some reason) = none)
    (hresult : result = if s.callManager.calls[id]? = some call then (none, m)
      else (some reason, s.callManager))
    (htype : isCallType type = true) (hbetween : call.between x y)
    (hstep : s.callManager.calls[id]? = some call →
      CallStep s.callManager ((k none).toList ++ [.sent ⟨type, x, y, id⟩]) m) :
    Operates env p s type x y id := by
  by_cases hid : s.callManager.calls[id]? = some call
  · rw [if_pos hid] at hresult
    obtain ⟨hrun, hmarks⟩ := hp _ _ hresult
    refine .inr ⟨m, call, hrun, htype, hid, hbetween, ?_⟩
    rw [hmarks]
    exact hstep hid
  · rw [if_neg hid] at hresult
    obtain ⟨hrun, hmarks⟩ := hp _ _ hresult
    rw [hk] at hmarks
    exact .inl ⟨reason, hrun, hmarks⟩

theorem operates_acceptCall (hm : s.callManager.Consistent) (x y id : Bytes) :
    Operates env (act (.acceptCall x y id)) s (ascii "call_accept") x y id :=
  operates_of_pending (k := mark s (.acceptCall x y id))
    (fun r m h => run_act (congrArg s.onCalls h)) (fun reason => rfl)
    (CallManager.acceptCall_eq hm x y id) (by decide) (.inr ⟨rfl, rfl⟩) fun hid => .accept hid

theorem operates_rejectCall (hm : s.callManager.Consistent) (x y id : Bytes) :
    Operates env (act (.rejectCall x y id)) s (ascii "call_reject") x y id :=
  operates_of_pending (k := mark s (.rejectCall x y id))
    (fun r m h => run_act (congrArg s.onCalls h)) (fun reason => rfl)
    (CallManager.rejectCall_eq hm x y id) (by decide) (.inr ⟨rfl, rfl⟩) fun hid =>
      .finish hid (.inr ⟨rfl, rfl⟩) (.inr ⟨rfl, rfl⟩)

theorem operates_cancelCall (hm : s.callManager.Consistent) (x y id : Bytes) :
    Operates env (act (.cancelCall x y id)) s (ascii "call_cancel") x y id :=
  operates_of_pending (k := mark s (.cancelCall x y id))
    (fun r m h => run_act (congrArg s.onCalls h)) (fun reason => rfl)
    (CallManager.cancelCall_eq hm x y id) (by decide) (.inl ⟨rfl, rfl⟩) fun hid =>
      .finish hid (.inl ⟨rfl, rfl⟩) (.inl ⟨rfl, .inl rfl⟩)

theorem operates_timeoutCall (hm : s.callManager.Consistent) (x y id : Bytes) :
    Operates env (act (.timeoutCall x y id)) s (ascii "call_timeout") x y id :=
  operates_of_pending (k := mark s (.timeoutCall x y id))
    (fun r m h => run_act (congrArg s.onCalls h)) (fun reason => rfl)
    (CallManager.cancelCall_eq hm x y id) (by decide) (.inl ⟨rfl, rfl⟩) fun hid =>
      .finish hid (.inl ⟨rfl, rfl⟩) (.inl ⟨rfl, .inr rfl⟩)

theorem operates_hangupCall (hm : s.callManager.Consistent) (x y id : Bytes) :
    Operates env (act (.hangupCall x y id)) s (ascii "call_hangup") x y id := by
  by_cases hactive : ∃ call, s.callManager.calls[id]? = some call ∧ call.accepted = true ∧
      call.between x y
  · obtain ⟨call, hid, haccepted, hbetween⟩ := hactive
    have heq := CallManager.hangupCall_of_active hm hid haccepted hbetween
    have hexec : exec env (.hangupCall x y id) s = (none, _) := congrArg s.onCalls heq
    obtain ⟨hrun, hmarks⟩ := run_act hexec
    have hends : call.EndsBy x (ascii "call_hangup") := by
      rw [CallRecord.EndsBy, if_pos haccepted]
    refine .inr ⟨_, call, hrun, by decide, hid, hbetween, ?_⟩
    rw [hmarks]
    exact .finish hid hbetween hends
  · have heq := CallManager.hangupCall_of_not_active hm fun call hid haccepted hbetween =>
      hactive ⟨call, hid, haccepted, hbetween⟩
    have hexec : exec env (.hangupCall x y id) s = (some _, s) := congrArg s.onCalls heq
    exact .inl ⟨_, run_act hexec⟩

/-- **Every call operation does what its event announces, or nothing.** -/
theorem operates_callOperation (hm : s.callManager.Consistent) (type x y id : Bytes) :
    Operates env (callOperation type x y id) s type x y id := by
  rw [callOperation]
  by_cases haccept : type = ascii "call_accept"
  · rw [if_pos haccept, haccept]
    exact operates_acceptCall hm x y id
  rw [if_neg haccept]
  by_cases hreject : type = ascii "call_reject"
  · rw [if_pos hreject, hreject]
    exact operates_rejectCall hm x y id
  rw [if_neg hreject]
  by_cases hcancel : type = ascii "call_cancel"
  · rw [if_pos hcancel, hcancel]
    exact operates_cancelCall hm x y id
  rw [if_neg hcancel]
  by_cases htimeout : type = ascii "call_timeout"
  · rw [if_pos htimeout, htimeout]
    exact operates_timeoutCall hm x y id
  rw [if_neg htimeout]
  by_cases hhangup : type = ascii "call_hangup"
  · rw [if_pos hhangup, hhangup]
    exact operates_hangupCall hm x y id
  rw [if_neg hhangup]
  exact .inl ⟨[], rfl, rfl⟩

/-- A refusal is answered to the requester only; what is granted is announced. -/
theorem Operates.does {p : Handler (Option Bytes)} {f : Option Bytes → Handler α}
    {type x y id : Bytes} (h : Operates env p s type x y id)
    {c : Conn} (hrefused : ∀ reason, AnswersOnly c (f (some reason)))
    (hgranted : ∀ m call, s.callManager.calls[id]? = some call → call.between x y →
      isCallType type = true →
      Leaves env (f none) { s with callManager := m } [.sent ⟨type, x, y, id⟩] m) :
    Does env (p >>= f) s := by
  rw [Does, Prog.log_bind, marks_append, Prog.run_bind]
  rcases h with ⟨reason, hrun, hmarks⟩ | ⟨m, call, hrun, htype, hid, hbetween, hstep⟩
  · rw [hmarks, hrun]
    exact does_of_answersOnly (hrefused reason)
  · obtain ⟨hl, hm⟩ := hgranted m call hid hbetween htype
    rw [hrun, hl, hm]
    exact hstep

theorem does_handleCallAction (h : InOrder s fun _ => .quiet) (connection : Conn)
    (request : JsonObject) (type x y id : Bytes) :
    Does env (handleCallAction connection request type x y id) s := by
  refine (operates_callOperation h.calls.consistent type x y id).does (c := connection) ?_ ?_
  · intro reason
    exact answersOnly_sendCallError ..
  · intro m call hid hbetween htype
    obtain ⟨c, hc⟩ := h.participant_online hid hbetween.right_mem
    -- the event goes to the other participant, who is online
    refine Leaves.act (exec_userFind hc) ?_
    exact leaves_event (callEvent?_makeCallEvent htype x y id _) (h.username_eq hc)

/-- A handler that begins by asking for the name of its session. -/
theorem does_requireLoggedIn {c : Conn} {f : Option Bytes → Handler α}
    (hnone : AnswersOnly c (f none)) (hsome : (s.connections c).username ≠ [] →
      Does env (f (some (s.connections c).username)) s) :
    Does env (requireLoggedIn c >>= f) s := by
  obtain ⟨hmarks, -⟩ := marks_answersOnly (answersOnly_requireLoggedIn (c := c)) env s
  rw [Does, Prog.log_bind, marks_append, hmarks, Prog.run_bind, run_requireLoggedIn]
  split_ifs with hname
  · have hrest : Does env (f none)
        (s.send c (.json (makeErrorResponse (ascii "login required")))) :=
      does_of_answersOnly hnone
    exact hrest
  · exact hsome hname

theorem does_handleCallRequest (h : InOrder s fun _ => .quiet) (connection : Conn)
    (request : JsonObject) : Does env (handleCallRequest connection request) s := by
  refine does_requireLoggedIn trivial fun _ => ?_
  dsimp only
  split_ifs with _ _ _ _ hsignaling
  · exact does_of_answersOnly (answersOnly_sendCallError ..)
  · exact does_of_answersOnly (answersOnly_sendCallError ..)
  · exact does_of_answersOnly (answersOnly_sendCallError ..)
  · exact does_handleInvite h ..
  · exact does_handleSignaling h connection request hsignaling ..
  · exact does_handleCallAction h ..

theorem disconnectType_eq_leavingType (state : CallUserState) :
    disconnectType state = leavingType state := by
  cases state <;> rfl

/-- A participant who leaves ends the call, and the peer is told. -/
theorem does_leaveCall_of_between (h : InOrder s fun _ => .quiet) {x y id : Bytes}
    {call : CallRecord} {state : CallUserState} (hid : s.callManager.calls[id]? = some call)
    (hbetween : call.between x y) (hends : call.EndsBy x (leavingType state))
    (hremove : s.callManager.removeUser x = (some ⟨id, y, state⟩, s.callManager.without id call)) :
    Does env (leaveCall x) s := by
  obtain ⟨c, hc⟩ := h.participant_online hid hbetween.right_mem
  have hexec : exec env (.removeUser x) s =
      (some ⟨id, y, state⟩, { s with callManager := s.callManager.without id call }) :=
    congrArg s.onCalls hremove
  have htype : isCallType (leavingType state) = true := by cases state <;> decide
  refine Leaves.does (m := s.callManager.without id call)
    (l := [.removed x (leavingType state) id, .sent ⟨leavingType state, x, y, id⟩]) ?_
    (.finish hid hbetween hends)
  refine Leaves.act hexec ?_
  refine Leaves.act (exec_userFind hc) ?_
  rw [disconnectType_eq_leavingType]
  exact leaves_event (callEvent?_makeCallEvent htype x y id _) (h.username_eq hc)

theorem does_leaveCall (h : InOrder s fun _ => .quiet) (u : Bytes) : Does env (leaveCall u) s := by
  have hm := h.calls.consistent
  cases hu : s.callManager.users[u]? with
  | none =>
    have hexec : exec env (.removeUser u) s = (none, s) :=
      congrArg s.onCalls (CallManager.removeUser_idle hu)
    exact does_act hexec rfl rfl (does_ret ())
  | some entry =>
    obtain ⟨call, hid, rfl | rfl⟩ := hm.user hu
    · refine does_leaveCall_of_between h hid (.inl ⟨rfl, rfl⟩) ?_ (CallManager.removeUser_caller hm hid)
      rw [CallRecord.EndsBy]
      split_ifs
      · rfl
      · exact .inl ⟨rfl, .inl rfl⟩
    · refine does_leaveCall_of_between h hid (.inr ⟨rfl, rfl⟩) ?_ (CallManager.removeUser_callee hm hid)
      rw [CallRecord.EndsBy]
      split_ifs
      · rfl
      · exact .inr ⟨rfl, rfl⟩

theorem does_logout (h : InOrder s fun _ => .quiet) (connection : Conn) (notifyClient : Bool) :
    Does env (logout connection notifyClient) s := by
  have hexec : exec env (.username connection) s = ((s.connections connection).username, s) := rfl
  refine does_act hexec rfl rfl ?_
  by_cases hname : (s.connections connection).username = []
  · rw [if_pos hname]
    cases notifyClient with
    | true => exact does_of_answersOnly (answersOnly_sendError ..)
    | false => exact does_ret ()
  · rw [if_neg hname]
    refine (does_leaveCall h _).bind_answers (c := connection) fun _ => ?_
    refine ⟨trivial, fun _ => ⟨trivial, fun _ => ⟨trivial, fun _ => ?_⟩⟩⟩
    cases notifyClient with
    | true => exact answersOnly_sendOk ..
    | false => exact trivial

/-! ### Every handler -/

/-- Both branches of a test. -/
theorem does_ite {q : Prop} [Decidable q] {p₁ p₂ : Handler α} (h₁ : Does env p₁ s)
    (h₂ : Does env p₂ s) : Does env (if q then p₁ else p₂) s := by
  split_ifs
  · exact h₁
  · exact h₂

theorem does_handleRequest (h : InOrder s fun _ => .quiet) (connection : Conn)
    (request : JsonObject) : Does env (handleRequest connection request) s := by
  rw [handleRequest]
  refine does_ite (does_of_answersOnly (answersOnly_login ..)) ?_
  refine does_ite (does_logout h ..) ?_
  refine does_ite (does_of_answersOnly (answersOnly_sendOnlineUsers ..)) ?_
  refine does_ite (does_of_tells (tells_sendPrivate (noCallEvent_privateEvent _ _)) fun _ h => h) ?_
  refine does_ite (does_of_answersOnly (answersOnly_createRoom ..)) ?_
  refine does_ite (does_of_answersOnly (answersOnly_joinRoom ..)) ?_
  refine does_ite (does_of_answersOnly (answersOnly_leaveRoom ..)) ?_
  refine does_ite (does_of_tells (tells_sendRoomMessage (noCallEvent_roomEvent _ _ _)) fun _ h => h) ?_
  refine does_ite (does_of_answersOnly (answersOnly_sendPrivateHistory ..)) ?_
  refine does_ite (does_of_answersOnly (answersOnly_sendRoomHistory ..)) ?_
  refine does_ite (does_handleCallRequest h ..) ?_
  exact does_of_answersOnly (answersOnly_sendError ..)

/-- **Every handler does one step about the calls.** -/
theorem does_onInput (h : InOrder s fun _ => .quiet) (connection : Conn) (input : Input) :
    Does env (onInput connection input) s := by
  cases input with
  | connected => exact does_of_answersOnly (answersOnly_sendOk ..)
  | disconnected => exact does_logout h connection false
  | reaction reaction =>
    cases reaction with
    | dispatch line request => exact does_handleRequest h connection request
    | parseError line error => exact does_of_answersOnly (answersOnly_sendError ..)
    | fault line => exact does_ret ()
    | tooLarge =>
      exact does_of_answersOnly ((answersOnly_sendError _).bind fun _ => Prog.only_perform trivial)

end Handlers

end ChatService
