import ChatService.Network.CallRoles
import ChatService.Network.OneCall

/-!
# The web clients and the server agree about calls

Seen from one call, every move of the system is a run of `OneCall` (`project_acts`, `project_reads`,
`project_serves`), unless the server reads a cancellation of a call that it has accepted before.  So the
invariant of one call holds of every call at once, and when nothing is under way, a client is active in a
call exactly when the server has its user in it.
-/

namespace ChatService

open AtomicProgram Byte Relation

/-! ### The view from one call -/

def CallType.up : CallType → Up
  | invite => .invite
  | accept => .accept
  | reject => .reject
  | cancel => .cancel
  | hangup => .hangup
  | timeout => .cancel
  | offer => .signal
  | answer => .signal
  | candidate => .signal

def NoticeType.down : NoticeType → Down
  | event .invite => .invite
  | event .accept => .accept
  | event .offer => .signal
  | event .answer => .signal
  | event .candidate => .signal
  | _ => .ending

def upsAbout (id : Bytes) (messages : List ClientMessage) : List Up :=
  (messages.filter fun m => m.callId = id).map fun m => m.type.up

def downsAbout (id : Bytes) (messages : List ServerMessage) : List Down :=
  (messages.filter fun message => message.callId = id).map fun message => message.type.down

def CallSlot.viewOf (σ : CallSlot) (id : Bytes) : CallView :=
  if σ.callId = id then σ.view else .inactive

/-- The call `id` of `a` with `b`. -/
def Network.project (n : Network) (id a b : Bytes) : OneCall where
  caller := (n.clients a).slot.viewOf id
  callee := (n.clients b).slot.viewOf id
  callerUp := upsAbout id (n.clients a).sent
  calleeUp := upsAbout id (n.clients b).sent
  callerDown := downsAbout id (n.toClient a)
  calleeDown := downsAbout id (n.toClient b)
  record := n.server.callManager.calls[id]?.map CallRecord.accepted

section

variable {id u : Bytes} {σ σ' : CallSlot} {m : ClientMessage} {message : ServerMessage}
  {messages : List ClientMessage} {input : ClientInput} {view : CallView}

theorem upsAbout_append (id : Bytes) (l l' : List ClientMessage) :
    upsAbout id (l ++ l') = upsAbout id l ++ upsAbout id l' := by
  rw [upsAbout, List.filter_append, List.map_append]
  rfl

theorem downsAbout_append (id : Bytes) (l l' : List ServerMessage) :
    downsAbout id (l ++ l') = downsAbout id l ++ downsAbout id l' := by
  rw [downsAbout, List.filter_append, List.map_append]
  rfl

theorem upsAbout_self (m : ClientMessage) : upsAbout m.callId [m] = [m.type.up] := by
  simp [upsAbout]

theorem upsAbout_of_ne (h : m.callId ≠ id) : upsAbout id [m] = [] := by
  simp [upsAbout, h]

theorem downsAbout_self (message : ServerMessage) :
    downsAbout message.callId [message] = [message.type.down] := by
  simp [downsAbout]

theorem downsAbout_of_ne (h : message.callId ≠ id) : downsAbout id [message] = [] := by
  simp [downsAbout, h]

theorem CallSlot.viewOf_self (σ : CallSlot) : σ.viewOf σ.callId = σ.view := if_pos rfl

theorem CallSlot.viewOf_of_ne (h : σ.callId ≠ id) : σ.viewOf id = .inactive := if_neg h

theorem CallSlot.viewOf_of_inactive (h : σ.view = .inactive) (id : Bytes) :
    σ.viewOf id = .inactive := by
  rw [CallSlot.viewOf, h, ite_self]

/-- A client sends a message about its own call. -/
theorem CallSlot.seen_own {type : CallType} {payload : Bytes}
    (h : OneCall.SideActs σ.view [type.up] view) (id : Bytes) :
    OneCall.SideActs (σ.viewOf id) (upsAbout id [⟨type, σ.peer, σ.callId, payload⟩])
      ({ σ with view := view : CallSlot }.viewOf id) := by
  by_cases hid : σ.callId = id
  · subst hid
    rw [viewOf_self, upsAbout_self ⟨type, σ.peer, σ.callId, payload⟩]
    show OneCall.SideActs _ _ (if σ.callId = σ.callId then view else _)
    rw [if_pos rfl]
    exact h
  · rw [viewOf_of_ne hid, viewOf_of_ne (σ := { σ with view := view }) hid,
      upsAbout_of_ne (m := ⟨type, σ.peer, σ.callId, payload⟩) hid]
    exact .stay _

theorem CallView.LeavesBy.sideActs {type : CallType} (h : view.LeavesBy type) :
    OneCall.SideActs view [type.up] .inactive := by
  cases view with
  | inactive => exact h.elim
  | outgoing =>
    rcases h with rfl | rfl
    · exact .cancel
    · exact .cancel
  | incoming =>
    obtain rfl : type = .reject := h
    exact .reject
  | talking =>
    obtain rfl : type = .hangup := h
    exact .hangup

theorem CallType.SignaledBy.up {type : CallType} {direction : CallDirection}
    (h : type.SignaledBy direction) : type.up = .signal := by
  cases type with
  | offer => rfl
  | answer => rfl
  | candidate => rfl
  | _ => exact h.elim

/-- What a client does on its own, seen from a call that it does not start. -/
theorem CallSlot.Acts.seen (h : σ.Acts u input messages σ')
    (hold : ∀ peer, input ≠ .startVideoCall peer id) :
    OneCall.SideActs (σ.viewOf id) (upsAbout id messages) (σ'.viewOf id) := by
  cases h with
  | stay => exact .stay _
  | @start peer callId hinput hview hself hid hpeer =>
    have hne : callId ≠ id := by
      rintro rfl
      exact hold peer hinput
    rw [viewOf_of_inactive hview, viewOf_of_ne (σ := ⟨.outgoing, callId, peer, .outgoing⟩) hne,
      upsAbout_of_ne (m := ⟨.invite, peer, callId, ascii "video"⟩) hne]
    exact .stay _
  | reset hview hview' =>
    rw [viewOf_of_inactive hview, viewOf_of_inactive hview']
    exact .stay _
  | leave hleaves => exact seen_own hleaves.sideActs id
  | accept hview =>
    refine seen_own ?_ id
    rw [hview]
    exact .accept
  | @signal type payload hview hsignaled hpayload =>
    have hside : OneCall.SideActs σ.view [type.up] σ.view := by
      rw [hview, hsignaled.up]
      exact .signal
    exact seen_own hside id

theorem NoticeType.Ending.down {type : NoticeType} (h : type.Ending) : type.down = .ending := by
  cases type with
  | busy => rfl
  | error => rfl
  | event type =>
    cases type with
    | reject => rfl
    | cancel => rfl
    | hangup => rfl
    | timeout => rfl
    | _ => exact h.elim

theorem NoticeType.Signaling.down {type : NoticeType} (h : type.Signaling) : type.down = .signal := by
  cases type with
  | busy => exact h.elim
  | error => exact h.elim
  | event type =>
    cases type with
    | offer => rfl
    | answer => rfl
    | candidate => rfl
    | _ => exact h.elim

theorem NoticeType.down_eq_invite {type : NoticeType} : type.down = .invite ↔ type = .event .invite := by
  cases type with
  | busy => decide
  | error => decide
  | event type => cases type <;> decide

/-- A client that is not in the call takes a message about it, other than an invitation. -/
theorem OneCall.sideReads_outside {down : Down} (hview : view ≠ .outgoing) (hinvite : down ≠ .invite)
    (hgone : down = .ending → view = .inactive) : OneCall.SideReads view [down] [] view := by
  by_cases hending : down = .ending
  · rw [hgone hending, hending]
    exact .ended _
  · exact .ignored hending hinvite fun _ => hview

/-- What a client does upon a message, seen from a call. -/
theorem CallSlot.Reacts.seen (h : σ.Reacts message messages σ')
    (hsender : message.type = .event .invite → message.sender ≠ []) (hcallId : message.callId ≠ []) :
    OneCall.SideReads (σ.viewOf id) (downsAbout id [message]) (upsAbout id messages) (σ'.viewOf id) := by
  by_cases hid : message.callId = id
  · subst hid
    rw [downsAbout_self]
    cases h with
    | ring htype _ _ hview =>
      rw [htype, viewOf_of_inactive hview,
        viewOf_self ⟨.incoming, message.callId, message.sender, .incoming⟩]
      exact .ring
    | nobody htype hnobody =>
      rcases hnobody with hnobody | hnobody
      · exact absurd hnobody (hsender htype)
      · exact absurd hnobody hcallId
    | decline htype hview =>
      rw [htype, upsAbout_self ⟨.reject, message.sender, message.callId, ascii "busy"⟩]
      exact .decline _
    | other htype hother =>
      rw [viewOf_of_ne (Ne.symm (hother.resolve_left hcallId))]
      refine OneCall.sideReads_outside (by decide) (fun h => htype (NoticeType.down_eq_invite.mp h)) ?_
      exact fun _ => rfl
    | connect htype hid hview =>
      rw [htype, hid, viewOf_self, hview, viewOf_self { σ with view := .talking }]
      exact .connect
    | late htype hview =>
      rw [htype]
      refine .ignored nofun nofun fun _ houtgoing => hview ?_
      rw [CallSlot.viewOf] at houtgoing
      split_ifs at houtgoing
      exact houtgoing
    | ended hending hid =>
      rw [hending.down, viewOf_of_inactive (σ := { σ with view := .inactive }) rfl]
      exact .ended _
    | signaled htype =>
      rw [htype.down]
      exact .ignored nofun nofun nofun
    | @hangup payload htype hid hview =>
      rw [htype.down, hid, viewOf_self, hview, upsAbout_self ⟨.hangup, σ.peer, σ.callId, payload⟩,
        viewOf_of_inactive (σ := { σ with view := .inactive }) rfl]
      exact .hangup
  · rw [downsAbout_of_ne hid]
    cases h with
    | ring htype _ _ hview =>
      rw [viewOf_of_inactive hview,
        viewOf_of_ne (σ := ⟨.incoming, message.callId, message.sender, .incoming⟩) hid]
      exact .elsewhere _
    | nobody htype hnobody => exact .elsewhere _
    | decline htype hview =>
      rw [upsAbout_of_ne (m := ⟨.reject, message.sender, message.callId, ascii "busy"⟩) hid]
      exact .elsewhere _
    | other htype hother => exact .elsewhere _
    | connect htype hsame hview =>
      rw [hsame] at hid
      rw [viewOf_of_ne hid, viewOf_of_ne (σ := { σ with view := .talking }) hid]
      exact .elsewhere _
    | late htype hview => exact .elsewhere _
    | ended hending hsame =>
      rw [hsame] at hid
      rw [viewOf_of_ne hid, viewOf_of_ne (σ := { σ with view := .inactive }) hid]
      exact .elsewhere _
    | signaled htype => exact .elsewhere _
    | @hangup payload htype hsame hview =>
      rw [hsame] at hid
      rw [viewOf_of_ne hid, viewOf_of_ne (σ := { σ with view := .inactive }) hid,
        upsAbout_of_ne (m := ⟨.hangup, σ.peer, σ.callId, payload⟩) hid]
      exact .elsewhere _

/-! ### The server, seen from one call -/

variable {parties : Parties} {calls calls' : CallManager} {recipient peer : Bytes}
  {direction : CallDirection}

/-- The names in the calls are valid. -/
def CallManager.ValidNames (calls : CallManager) : Prop :=
  ∀ (id : Bytes) (call : CallRecord), calls.calls[id]? = some call → call.caller ≠ call.callee ∧
    isValidName call.caller = true ∧ isValidName call.callee = true

theorem InOrder.validNames {s : ServerState} (h : InOrder s fun _ => .quiet) :
    s.callManager.ValidNames := by
  intro id call hcall
  obtain ⟨c, hc⟩ := h.participant_online hcall (.inl rfl)
  obtain ⟨c', hc'⟩ := h.participant_online hcall (.inr rfl)
  exact ⟨h.calls.consistent.distinct hcall, h.identity.valid hc, h.identity.valid hc'⟩

/-- The record of a call, by the parts of the two. -/
theorem CallManager.Names.record_of_part (hnames : calls.Names parties)
    (hpart : parties.Part id u peer direction) {call : CallRecord} (hcall : calls.calls[id]? = some call) :
    call.between u peer ∧ (direction = .outgoing → call = ⟨u, peer, call.accepted⟩) ∧
      (direction = .incoming → call = ⟨peer, u, call.accepted⟩) := by
  have hparties := (hnames id call hcall).1
  obtain ⟨caller, callee, accepted⟩ := call
  cases direction with
  | none => exact hpart.elim
  | outgoing =>
    obtain ⟨rfl, rfl⟩ := Prod.mk.inj (Option.some.inj (hparties.symm.trans hpart))
    exact ⟨.inl ⟨rfl, rfl⟩, fun _ => rfl, nofun⟩
  | incoming =>
    obtain ⟨rfl, rfl⟩ := Prod.mk.inj (Option.some.inj (hparties.symm.trans hpart))
    exact ⟨.inr ⟨rfl, rfl⟩, nofun, fun _ => rfl⟩

/-- A message about a call that is there is granted if the call is in the right state for it. -/
theorem granted_of_call (hvalid : calls.ValidNames) (hnames : calls.Names parties)
    (hm : m.Sound parties u) {call : CallRecord} (hcall : calls.calls[m.callId]? = some call)
    (hpending : m.type.up = .cancel ∨ m.type.up = .accept ∨ m.type.up = .reject →
      call.accepted = false)
    (hactive : m.type.up = .hangup ∨ m.type.up = .signal → call.accepted = true)
    (hinvite : m.type ≠ .invite) : Granted calls u m := by
  obtain ⟨hdistinct, hcaller, hcallee⟩ := hvalid _ _ hcall
  obtain ⟨direction, hpart, hsent⟩ := hm.part
  obtain ⟨hbetween, houtgoing, hincoming⟩ := hnames.record_of_part hpart hcall
  have htarget : isValidName m.target = true ∧ m.target ≠ u := by
    rcases hbetween with ⟨rfl, hcallee'⟩ | ⟨hcaller', rfl⟩
    · rw [← hcallee']
      exact ⟨hcallee, hdistinct.symm⟩
    · rw [← hcaller']
      exact ⟨hcaller, hdistinct⟩
  refine ⟨htarget.1, (hnames _ _ hcall).2, htarget.2, ?_⟩
  -- a pending call, by the part of its sender
  have hpending' : m.type.up = .cancel ∨ m.type.up = .accept ∨ m.type.up = .reject →
      (direction = .outgoing → calls.calls[m.callId]? = some ⟨u, m.target, false⟩) ∧
        (direction = .incoming → calls.calls[m.callId]? = some ⟨m.target, u, false⟩) := by
    intro hup
    rw [hpending hup] at houtgoing hincoming
    exact ⟨fun h => hcall.trans (congrArg some (houtgoing h)),
      fun h => hcall.trans (congrArg some (hincoming h))⟩
  cases htype : m.type with
  | invite => exact absurd htype hinvite
  | accept =>
    rw [htype] at hpending' hsent
    exact (hpending' (.inr (.inl rfl))).2 hsent
  | reject =>
    rw [htype] at hpending' hsent
    exact (hpending' (.inr (.inr rfl))).2 hsent
  | cancel =>
    rw [htype] at hpending' hsent
    exact (hpending' (.inl rfl)).1 hsent
  | timeout =>
    rw [htype] at hpending' hsent
    exact (hpending' (.inl rfl)).1 hsent
  | hangup =>
    rw [htype] at hactive
    exact ⟨call, hcall, hactive (.inl rfl), hbetween⟩
  | offer =>
    rw [htype] at hactive hsent
    refine ⟨hm.payload (.inl htype), call, hcall, hactive (.inr rfl), hbetween, fun _ => ?_, nofun⟩
    exact congrArg CallRecord.caller (houtgoing hsent)
  | answer =>
    rw [htype] at hactive hsent
    refine ⟨hm.payload (.inr (.inl htype)), call, hcall, hactive (.inr rfl), hbetween, nofun,
      fun _ => ?_⟩
    exact congrArg CallRecord.callee (hincoming hsent)
  | candidate =>
    rw [htype] at hactive
    exact ⟨hm.payload (.inr (.inr htype)), call, hcall, hactive (.inr rfl), hbetween, nofun, nofun⟩

/-- What a pending call is asked for and what an active call is asked for are different things. -/
theorem Up.of_pending {up : Up} (hpending : up = .cancel ∨ up = .accept ∨ up = .reject) :
    ¬ (up = .hangup ∨ up = .signal) := by
  rcases hpending with rfl | rfl | rfl
  · decide
  · decide
  · decide

/-- What the server refuses, it could not have done: the call is not there, or not in the right state. -/
theorem record_of_refused (hvalid : calls.ValidNames) (hnames : calls.Names parties)
    (hm : m.Sound parties u) (hrefused : ¬ Granted calls u m) :
    (m.type.up = .cancel ∨ m.type.up = .accept ∨ m.type.up = .reject →
      calls.calls[m.callId]?.map CallRecord.accepted ≠ some false) ∧
    (m.type.up = .hangup ∨ m.type.up = .signal →
      calls.calls[m.callId]?.map CallRecord.accepted ≠ some true) := by
  constructor
  · intro hup hrecord
    obtain ⟨call, hcall, haccepted⟩ := Option.map_eq_some_iff.mp hrecord
    refine hrefused (granted_of_call hvalid hnames hm hcall (fun _ => haccepted)
      (fun hup' => absurd hup' (Up.of_pending hup)) fun htype => ?_)
    rw [htype] at hup
    exact absurd hup (by decide)
  · intro hup hrecord
    obtain ⟨call, hcall, haccepted⟩ := Option.map_eq_some_iff.mp hrecord
    refine hrefused (granted_of_call hvalid hnames hm hcall (fun hup' => absurd hup (Up.of_pending hup'))
      (fun _ => haccepted) fun htype => ?_)
    rw [htype] at hup
    exact absurd hup (by decide)

theorem CallManager.record_without (calls : CallManager) (id : Bytes) (call : CallRecord) :
    (calls.without id call).calls[id]?.map CallRecord.accepted = none := by
  rw [CallManager.without, Tables.getElem?_erase, if_pos rfl]
  rfl

theorem CallManager.record_withCall (calls : CallManager) (a b id : Bytes) :
    (calls.withCall a b id).calls[id]?.map CallRecord.accepted = some false := by
  rw [CallManager.withCall, Tables.getElem?_insert_self]
  rfl

theorem CallManager.record_withAccepted (calls : CallManager) (a b id : Bytes) :
    (calls.withAccepted a b id).calls[id]?.map CallRecord.accepted = some true := by
  rw [CallManager.withAccepted, Tables.getElem?_insert_self]
  rfl

theorem CallType.up_eq_cancel {type : CallType} :
    type.up = .cancel ↔ type = .cancel ∨ type = .timeout := by
  cases type <;> decide

theorem CallType.up_of_signals {type : CallType}
    (h : type = .offer ∨ type = .answer ∨ type = .candidate) : type.up = .signal := by
  rcases h with rfl | rfl | rfl
  · rfl
  · rfl
  · rfl

theorem CallType.down_of_signals {type : CallType}
    (h : type = .offer ∨ type = .answer ∨ type = .candidate) :
    (NoticeType.event type).down = .signal := by
  rcases h with rfl | rfl | rfl
  · rfl
  · rfl
  · rfl

theorem up_of_sentAs_outgoing {type : CallType} (h : type.SentAs .outgoing) :
    type.up ≠ .accept ∧ type.up ≠ .reject := by
  cases type with
  | accept => exact absurd h nofun
  | reject => exact absurd h nofun
  | _ => decide

theorem up_of_sentAs_incoming {type : CallType} (h : type.SentAs .incoming) :
    type.up ≠ .invite ∧ type.up ≠ .cancel := by
  cases type with
  | invite => exact absurd h nofun
  | cancel => exact absurd h nofun
  | timeout => exact absurd h nofun
  | _ => decide

theorem eq_none_of_ne {record : Option Bool} (hfalse : record ≠ some false)
    (htrue : record ≠ some true) : record = none := by
  cases record with
  | none => rfl
  | some accepted =>
    cases accepted with
    | false => exact absurd rfl hfalse
    | true => exact absurd rfl htrue

/-- The server reads a message of the caller; a cancellation does not come too late. -/
theorem Served.caller (h : Served calls u m calls' recipient message) (hvalid : calls.ValidNames)
    (hnames : calls.Names parties) (hm : m.Sound parties u) (hid : parties m.callId = some (u, peer))
    (hpeer : u ≠ peer)
    (hlate : m.type.up = .cancel → calls.calls[m.callId]?.map CallRecord.accepted ≠ some true)
    {k : OneCall} {rest : List Up} (hup : k.callerUp = m.type.up :: rest)
    (hrecord : k.record = calls.calls[m.callId]?.map CallRecord.accepted) :
    OneCall.ServesCaller k { k with
      callerUp := rest
      record := calls'.calls[m.callId]?.map CallRecord.accepted
      callerDown := k.callerDown ++ if u = recipient then [message.type.down] else []
      calleeDown := k.calleeDown ++ if peer = recipient then [message.type.down] else [] } := by
  obtain ⟨direction, hpart, hsent⟩ := hm.part
  have hrole : parties.Part m.callId u peer .outgoing := hid
  obtain ⟨rfl, htarget⟩ := hpart.unique hrole fun a b hab => by
    obtain ⟨rfl, rfl⟩ := Prod.mk.inj (Option.some.inj (hab.symm.trans hid))
    exact hpeer
  subst htarget
  -- the call that is there is one of `u` with the target
  have hcall : ∀ {accepted : Bool}, calls.calls[m.callId]? ≠ some ⟨m.target, u, accepted⟩ := by
    intro accepted hcall
    obtain ⟨-, houtgoing, -⟩ := hnames.record_of_part hpart hcall
    exact hpeer (congrArg CallRecord.callee (houtgoing rfl))
  cases h with
  | @refused type sender candidate htype hgranted =>
    obtain ⟨hpending, hactive⟩ := record_of_refused hvalid hnames hm hgranted
    have hdown : type.down = .ending := by rcases htype with rfl | rfl <;> rfl
    rw [if_pos rfl, if_neg hpeer.symm, List.append_nil, hdown, ← hrecord]
    refine .refused hup (up_of_sentAs_outgoing hsent).1 (up_of_sentAs_outgoing hsent).2
      (fun hcancel => ?_) fun htalking => ?_
    · have hlate' := hlate hcancel
      have hpending' := hpending (.inl hcancel)
      rw [← hrecord] at hlate' hpending'
      exact eq_none_of_ne hpending' hlate'
    · rw [hrecord]
      exact hactive htalking
  | invited htype hfree hself htarget hvalid =>
    rw [if_neg hpeer, if_pos rfl, List.append_nil, CallManager.record_withCall]
    refine .invited (hup.trans (by rw [htype]; rfl)) ?_
    rw [hrecord, hfree]
    rfl
  | accepted htype hold => exact absurd hold hcall
  | rejected htype hold => exact absurd hold hcall
  | cancelled htype hold =>
    have hcancel : m.type.up = .cancel ∧ (NoticeType.event m.type).down = .ending := by
      rcases htype with htype | htype
      · rw [htype]
        exact ⟨rfl, rfl⟩
      · rw [htype]
        exact ⟨rfl, rfl⟩
    rw [if_neg hpeer, if_pos rfl, List.append_nil, CallManager.record_without, hcancel.2]
    refine .cancelled (hup.trans (by rw [hcancel.1])) ?_
    rw [hrecord, hold]
    rfl
  | hungUp htype hold haccepted hbetween =>
    rw [if_neg hpeer, if_pos rfl, List.append_nil, CallManager.record_without]
    refine .hungUp (hup.trans (by rw [htype]; rfl)) ?_
    rw [hrecord, hold, Option.map_some, haccepted]
  | forwarded htype hold haccepted hbetween =>
    rw [if_neg hpeer, if_pos rfl, List.append_nil, ← hrecord, CallType.down_of_signals htype]
    refine .forwarded (hup.trans (by rw [CallType.up_of_signals htype])) ?_
    rw [hrecord, hold, Option.map_some, haccepted]

/-- The server reads a message of the callee. -/
theorem Served.callee (h : Served calls u m calls' recipient message) (hvalid : calls.ValidNames)
    (hnames : calls.Names parties) (hm : m.Sound parties u) (hid : parties m.callId = some (peer, u))
    (hpeer : peer ≠ u) {k : OneCall} {rest : List Up} (hup : k.calleeUp = m.type.up :: rest)
    (hrecord : k.record = calls.calls[m.callId]?.map CallRecord.accepted) :
    OneCall.ServesCallee k { k with
      calleeUp := rest
      record := calls'.calls[m.callId]?.map CallRecord.accepted
      callerDown := k.callerDown ++ if peer = recipient then [message.type.down] else []
      calleeDown := k.calleeDown ++ if u = recipient then [message.type.down] else [] } := by
  obtain ⟨direction, hpart, hsent⟩ := hm.part
  have hrole : parties.Part m.callId u peer .incoming := hid
  obtain ⟨rfl, htarget⟩ := hpart.unique hrole fun a b hab => by
    obtain ⟨rfl, rfl⟩ := Prod.mk.inj (Option.some.inj (hab.symm.trans hid))
    exact hpeer
  subst htarget
  -- the call that is there is one of the target with `u`
  have hcall : ∀ {accepted : Bool}, calls.calls[m.callId]? ≠ some ⟨u, m.target, accepted⟩ := by
    intro accepted hcall
    obtain ⟨-, -, hincoming⟩ := hnames.record_of_part hpart hcall
    exact hpeer (congrArg CallRecord.callee (hincoming rfl))
  cases h with
  | @refused type sender candidate htype hgranted =>
    obtain ⟨hpending, hactive⟩ := record_of_refused hvalid hnames hm hgranted
    have hdown : type.down = .ending := by rcases htype with rfl | rfl <;> rfl
    rw [if_pos rfl, if_neg hpeer, List.append_nil, hdown, ← hrecord]
    refine .refused hup (up_of_sentAs_incoming hsent).1 (up_of_sentAs_incoming hsent).2
      (fun hanswer => ?_) fun htalking => ?_
    · rw [hrecord]
      exact hpending (.inr hanswer)
    · rw [hrecord]
      exact hactive htalking
  | invited htype hfree hself htarget hvalid =>
    rw [htype] at hsent
    exact absurd hsent nofun
  | accepted htype hold =>
    rw [if_neg hpeer.symm, if_pos rfl, List.append_nil, CallManager.record_withAccepted]
    refine .accepted (hup.trans (by rw [htype]; rfl)) ?_
    rw [hrecord, hold]
    rfl
  | rejected htype hold =>
    rw [if_neg hpeer.symm, if_pos rfl, List.append_nil, CallManager.record_without]
    refine .rejected (hup.trans (by rw [htype]; rfl)) ?_
    rw [hrecord, hold]
    rfl
  | cancelled htype hold => exact absurd hold hcall
  | hungUp htype hold haccepted hbetween =>
    rw [if_neg hpeer.symm, if_pos rfl, List.append_nil, CallManager.record_without]
    refine .hungUp (hup.trans (by rw [htype]; rfl)) ?_
    rw [hrecord, hold, Option.map_some, haccepted]
  | forwarded htype hold haccepted hbetween =>
    rw [if_neg hpeer.symm, if_pos rfl, List.append_nil, ← hrecord, CallType.down_of_signals htype]
    refine .forwarded (hup.trans (by rw [CallType.up_of_signals htype])) ?_
    rw [hrecord, hold, Option.map_some, haccepted]

end

/-! ### Moves, seen from one call -/

namespace Network

/-- What is kept of a reachable state: everybody knows the parties, and every call is in order. -/
structure InCallOrder (n : Network) (parties : Parties) : Prop where
  coherent : n.Coherent parties
  calls : ∀ {id a b : Bytes}, parties id = some (a, b) → (n.project id a b).Inv

variable {n : Network} {parties : Parties} {u id a b : Bytes} {input : ClientInput}

/-- Nothing is there of a call that nobody has started. -/
theorem Coherent.unknown (h : n.Coherent parties) (hid : parties id = none) (v : Bytes) :
    upsAbout id (n.clients v).sent = [] ∧ downsAbout id (n.toClient v) = [] ∧
      (n.clients v).slot.viewOf id = .inactive ∧ n.server.callManager.calls[id]? = none := by
  refine ⟨?_, ?_, ?_, ?_⟩
  · rw [upsAbout, List.filter_eq_nil_iff.mpr, List.map_nil]
    intro m hm hsame
    obtain ⟨direction, hpart, -⟩ := (h.sent v m hm).part
    rw [of_decide_eq_true hsame] at hpart
    exact hpart.isSome hid
  · rw [downsAbout, List.filter_eq_nil_iff.mpr, List.map_nil]
    intro message hmessage hsame
    obtain ⟨direction, peer, hpart, -⟩ := (h.heard v message hmessage).part
    rw [of_decide_eq_true hsame] at hpart
    exact hpart.isSome hid
  · rw [CallSlot.viewOf]
    split_ifs with hsame
    · by_contra hactive
      have hpart := (h.slot v).part hactive
      rw [hsame] at hpart
      exact hpart.isSome hid
    · rfl
  · cases hcall : n.server.callManager.calls[id]? with
    | none => rfl
    | some call => exact absurd (hid.symm.trans (h.record id call hcall).1) nofun

/-- A new call begins as a call begins. -/
theorem project_calls (h : n.Coherent parties) {messages : List ClientMessage} {peer : Bytes}
    (hcalls : Calls u input messages ((n.clients u).onInput input).slot id peer)
    (hnew : parties id = none)
    (hsent : ((n.clients u).onInput input).sent = (n.clients u).sent ++ messages) :
    (n.after (.acts u input)).project id u peer = OneCall.start := by
  obtain ⟨hups, hdowns, -, hrecord⟩ := h.unknown hnew u
  obtain ⟨hups', hdowns', hview', -⟩ := h.unknown hnew peer
  have hslot := hcalls.slot
  rw [hcalls.messages] at hsent
  simp only [after, project, Function.update_self, Function.update_of_ne hcalls.other, hslot, hsent,
    upsAbout_append, hups, hups', hdowns, hdowns', hview', hrecord]
  rw [CallSlot.viewOf_self ⟨.outgoing, id, peer, .outgoing⟩,
    upsAbout_self ⟨.invite, peer, id, ascii "video"⟩]
  rfl

/-- A client acts, seen from a call that it does not start. -/
theorem project_acts (h : n.Coherent parties) (hid : parties id = some (a, b)) (hinv : (n.project id a b).Inv)
    {messages : List ClientMessage}
    (hacts : (n.clients u).slot.Acts u input messages ((n.clients u).onInput input).slot)
    (hsent : ((n.clients u).onInput input).sent = (n.clients u).sent ++ messages)
    (hold : ∀ peer, input ≠ .startVideoCall peer id) :
    ReflTransGen OneCall.Step (n.project id a b) ((n.after (.acts u input)).project id a b) := by
  have hab : a ≠ b := (h.proper hid).2.2
  have hseen := hacts.seen hold
  by_cases ha : u = a
  · subst ha
    have hsteps := OneCall.SideActs.caller (k := n.project id u b) hseen hinv
    simpa only [after, project, Function.update_self, Function.update_of_ne hab.symm, hsent,
      upsAbout_append] using hsteps
  by_cases hb : u = b
  · subst hb
    have hsteps := OneCall.SideActs.callee (k := n.project id a u) hseen hinv
    simpa only [after, project, Function.update_self, Function.update_of_ne hab, hsent,
      upsAbout_append] using hsteps
  · simp only [after, project, Function.update_of_ne (Ne.symm ha), Function.update_of_ne (Ne.symm hb)]
    exact .refl

theorem InCallOrder.acts (h : n.InCallOrder parties) (henabled : n.enabled (.acts u input)) :
    ∃ parties', (n.after (.acts u input)).InCallOrder parties' := by
  obtain ⟨messages, hacts, hsent, hcoherent⟩ := h.coherent.acts henabled
  obtain ⟨-, hold⟩ := newParties_of_acts hacts fun id hid => h.coherent.fresh henabled hid
  refine ⟨_, hcoherent, fun {id a b} hid => ?_⟩
  by_cases hnew : parties id = none
  · rcases hold id _ hid with hid | ⟨peer, hpair, hcalls⟩
    · exact absurd (hnew.symm.trans hid) nofun
    · obtain ⟨rfl, rfl⟩ := Prod.mk.inj hpair
      rw [project_calls h.coherent hcalls hnew hsent]
      exact OneCall.inv_start
  · have hid' : parties id = some (a, b) := by
      rcases hold id _ hid with hid | ⟨peer, hpair, hcalls⟩
      · exact hid
      · refine absurd (h.coherent.fresh henabled ?_) hnew
        rw [hcalls.input]
        exact List.mem_singleton_self id
    have hinv := h.calls hid'
    refine OneCall.inv_of_steps (project_acts h.coherent hid' hinv hacts hsent fun peer hinput => ?_) hinv
    refine hnew (h.coherent.fresh henabled ?_)
    rw [hinput]
    exact List.mem_singleton_self id

variable {message : ServerMessage} {rest : List ServerMessage}

/-- A client reads a message, seen from a call. -/
theorem project_reads (h : n.Coherent parties) (hid : parties id = some (a, b))
    (hinv : (n.project id a b).Inv) (hqueue : n.toClient u = message :: rest)
    {messages : List ClientMessage}
    (hreacts : (n.clients u).slot.Reacts message messages
      ((n.clients u).handleCallProtocolMessage message).slot)
    (hsent : ((n.clients u).handleCallProtocolMessage message).sent = (n.clients u).sent ++ messages) :
    ReflTransGen OneCall.Step (n.project id a b) ((n.after (.reads u)).project id a b) := by
  have hab : a ≠ b := (h.proper hid).2.2
  have hmessage : message.Sound parties u := by
    refine h.heard u message ?_
    rw [hqueue]
    exact List.mem_cons_self
  have hseen : OneCall.SideReads ((n.clients u).slot.viewOf id) (downsAbout id [message])
      (upsAbout id messages) (((n.clients u).handleCallProtocolMessage message).slot.viewOf id) := by
    refine hreacts.seen (fun htype => (h.proper (hmessage.invite htype)).2.1) ?_
    obtain ⟨direction, peer, hpart, -⟩ := hmessage.part
    obtain ⟨x, hx⟩ := Option.ne_none_iff_exists'.mp hpart.isSome
    exact (h.proper (a := x.1) (b := x.2) hx).1
  have hdown : downsAbout id (n.toClient u) = downsAbout id [message] ++ downsAbout id rest := by
    rw [hqueue, ← downsAbout_append]
    rfl
  rw [after_reads hqueue]
  by_cases ha : u = a
  · subst ha
    -- the caller is not invited to its own call
    have hinvite : .invite ∉ downsAbout id [message] := by
      intro hmem
      obtain ⟨message', hmem', hdown'⟩ := List.mem_map.mp hmem
      obtain ⟨hsingle, hsame⟩ := List.mem_filter.mp hmem'
      rw [List.mem_singleton.mp hsingle] at hdown' hsame
      have hpart := hmessage.invite (NoticeType.down_eq_invite.mp hdown')
      rw [of_decide_eq_true hsame] at hpart
      obtain ⟨-, rfl⟩ := Prod.mk.inj (Option.some.inj (hpart.symm.trans hid))
      exact (h.proper hpart).2.2 (Prod.mk.inj (Option.some.inj (hpart.symm.trans hid))).1
    have hsteps := OneCall.SideReads.caller (k := n.project id u b) hseen hdown hinvite
    simpa only [project, Function.update_self, Function.update_of_ne hab.symm, hsent,
      upsAbout_append] using hsteps
  by_cases hb : u = b
  · subst hb
    have hsteps := OneCall.SideReads.callee (k := n.project id a u) hseen hdown hinv
    simpa only [project, Function.update_self, Function.update_of_ne hab, hsent,
      upsAbout_append] using hsteps
  · simp only [project, Function.update_of_ne (Ne.symm ha), Function.update_of_ne (Ne.symm hb)]
    exact .refl

theorem InCallOrder.reads (h : n.InCallOrder parties) (hqueue : n.toClient u = message :: rest) :
    (n.after (.reads u)).InCallOrder parties := by
  obtain ⟨messages, hreacts, hsent, hcoherent⟩ := h.coherent.reads hqueue
  refine ⟨hcoherent, fun {id a b} hid => ?_⟩
  have hinv := h.calls hid
  exact OneCall.inv_of_steps (project_reads h.coherent hid hinv hqueue hreacts hsent) hinv

variable {m : ClientMessage} {rest' : List ClientMessage} {connection : Conn} {env : Env}

theorem project_eq (n : Network) (id a b : Bytes) : n.project id a b =
    ⟨(n.clients a).slot.viewOf id, (n.clients b).slot.viewOf id, upsAbout id (n.clients a).sent,
      upsAbout id (n.clients b).sent, downsAbout id (n.toClient a), downsAbout id (n.toClient b),
      n.server.callManager.calls[id]?.map CallRecord.accepted⟩ := rfl

theorem slot_after_serves (env : Env) (honline : n.server.userManager.users[u]? = some connection)
    (hqueue : (n.clients u).sent = m :: rest') (v : Bytes) :
    ((n.after (.serves u env)).clients v).slot = (n.clients v).slot ∧
      ((n.after (.serves u env)).clients v).sent = if v = u then rest' else (n.clients v).sent := by
  rw [after_serves honline hqueue]
  dsimp only
  split_ifs with hv
  · subst hv
    rw [Function.update_self]
    exact ⟨rfl, rfl⟩
  · rw [Function.update_of_ne hv]
    exact ⟨rfl, rfl⟩

/-- The server reads a message, seen from a call. -/
theorem project_serves (h : n.Coherent parties) (hid : parties id = some (a, b))
    (honline : n.server.userManager.users[u]? = some connection)
    (hqueue : (n.clients u).sent = m :: rest') (hlate : NoLateCancel n (.serves u env)) :
    ReflTransGen OneCall.Step (n.project id a b) ((n.after (.serves u env)).project id a b) := by
  have hab : a ≠ b := (h.proper hid).2.2
  have hm : m.Sound parties u := by
    refine h.sent u m ?_
    rw [hqueue]
    exact List.mem_cons_self
  obtain ⟨calls, recipient, message, hserved, hcalls, htoClient, -⟩ := h.serves env honline hqueue
  have hclients := slot_after_serves env honline hqueue
  by_cases hsame : m.callId = id
  · subst hsame
    have hdowns : ∀ v, downsAbout m.callId ((n.after (.serves u env)).toClient v) =
        downsAbout m.callId (n.toClient v) ++ if v = recipient then [message.type.down] else [] := by
      intro v
      rw [htoClient v, downsAbout_append]
      split_ifs
      · rw [← hserved.callId_eq, downsAbout_self]
      · rfl
    have hups : upsAbout m.callId (n.clients u).sent = m.type.up :: upsAbout m.callId rest' := by
      rw [hqueue, ← List.singleton_append, upsAbout_append, upsAbout_self]
      rfl
    have hlate' : m.type.up = .cancel →
        n.server.callManager.calls[m.callId]?.map CallRecord.accepted ≠ some true := by
      intro hcancel hrecord
      obtain ⟨call, hcall, haccepted⟩ := Option.map_eq_some_iff.mp hrecord
      have hfalse := hlate m (by rw [hqueue]; rfl) (CallType.up_eq_cancel.mp hcancel) call hcall
      exact absurd (haccepted.symm.trans hfalse) nofun
    obtain ⟨direction, hpart, -⟩ := hm.part
    cases direction with
    | none => exact hpart.elim
    | outgoing =>
      obtain ⟨rfl, rfl⟩ := Prod.mk.inj (Option.some.inj (hpart.symm.trans hid))
      have hstep := hserved.caller h.inOrder.validNames h.record hm hid hab hlate'
        (k := n.project m.callId u m.target) hups rfl
      refine .single (.servesCaller ?_)
      rw [project_eq (n.after _), (hclients u).1, (hclients m.target).1, (hclients u).2, (hclients m.target).2,
        if_pos rfl, if_neg hab.symm, hdowns u, hdowns m.target, hcalls]
      exact hstep
    | incoming =>
      obtain ⟨rfl, rfl⟩ := Prod.mk.inj (Option.some.inj (hpart.symm.trans hid))
      have hstep := hserved.callee h.inOrder.validNames h.record hm hid hab
        (k := n.project m.callId m.target u) hups rfl
      refine .single (.servesCallee ?_)
      rw [project_eq (n.after _), (hclients u).1, (hclients m.target).1, (hclients u).2, (hclients m.target).2,
        if_pos rfl, if_neg hab, hdowns u, hdowns m.target, hcalls]
      exact hstep
  · -- the message is about another call
    have hdowns : ∀ v, downsAbout id ((n.after (.serves u env)).toClient v) =
        downsAbout id (n.toClient v) := by
      intro v
      rw [htoClient v, downsAbout_append]
      split_ifs
      · rw [downsAbout_of_ne (hserved.callId_eq ▸ hsame), List.append_nil]
      · exact List.append_nil _
    have hups : ∀ v, upsAbout id ((n.after (.serves u env)).clients v).sent =
        upsAbout id (n.clients v).sent := by
      intro v
      rw [(hclients v).2]
      split_ifs with hv
      · rw [hv, hqueue, ← List.singleton_append, upsAbout_append, upsAbout_of_ne hsame, List.nil_append]
      · rfl
    rw [project_eq (n.after _), (hclients a).1, (hclients b).1, hups a, hups b, hdowns a, hdowns b, hcalls,
      hserved.elsewhere (Ne.symm hsame)]
    exact .refl

theorem InCallOrder.serves (h : n.InCallOrder parties)
    (honline : n.server.userManager.users[u]? = some connection)
    (hqueue : (n.clients u).sent = m :: rest') (hlate : NoLateCancel n (.serves u env)) :
    (n.after (.serves u env)).InCallOrder parties := by
  obtain ⟨-, -, -, -, -, -, hcoherent⟩ := h.coherent.serves env honline hqueue
  refine ⟨hcoherent, fun {id a b} hid => ?_⟩
  exact OneCall.inv_of_steps (project_serves h.coherent hid honline hqueue hlate) (h.calls hid)

/-- **Every reachable state is in order.** -/
theorem Reachable.inCallOrder {s₀ : ServerState} (hstart : Start s₀) (h : Reachable NoLateCancel s₀ n) :
    ∃ parties, n.InCallOrder parties := by
  induction h with
  | start => exact ⟨_, coherent_start hstart, nofun⟩
  | @move n move _ henabled hlate ih =>
    obtain ⟨parties, hn⟩ := ih
    cases move with
    | acts u input => exact hn.acts henabled
    | reads u =>
      obtain ⟨message, rest, hqueue⟩ := List.exists_cons_of_ne_nil henabled
      exact ⟨parties, hn.reads hqueue⟩
    | serves u env =>
      obtain ⟨connection, honline⟩ := Option.isSome_iff_exists.mp henabled.1
      obtain ⟨m, rest, hqueue⟩ := List.exists_cons_of_ne_nil henabled.2
      exact ⟨parties, hn.serves honline hqueue hlate⟩

end Network

/-! ### Agreement -/

section

variable {c : WebClient} {calls : CallManager} {u id : Bytes}

theorem WebClient.activeIn_iff : c.ActiveIn id ↔ c.slot.viewOf id ≠ .inactive := by
  have hphase : (c.call.phase = .outgoing ∨ c.call.phase = .incoming ∨ c.call.phase = .connecting ∨
      c.call.phase = .inCall) ↔ c.slot.view ≠ .inactive := by
    show _ ↔ c.call.phase.view ≠ .inactive
    cases c.call.phase <;> decide
  rw [WebClient.ActiveIn, hphase, CallSlot.viewOf]
  show _ ∧ c.slot.callId = id ↔ _
  split_ifs with hid
  · exact and_iff_left hid
  · exact ⟨fun h => absurd h.2 hid, fun h => absurd rfl h⟩

/-- The users in a call are its participants. -/
theorem CallManager.Consistent.holds_iff (h : calls.Consistent) :
    calls.Holds u id ↔ ∃ call, calls.calls[id]? = some call ∧ (u = call.caller ∨ u = call.callee) := by
  constructor
  · rintro ⟨entry, hentry, -, rfl⟩
    obtain ⟨call, hcall, hparty⟩ := h.entry hentry
    exact ⟨call, hcall, hparty.imp And.left And.left⟩
  · rintro ⟨call, hcall, rfl | rfl⟩
    · refine ⟨_, h.caller hcall, ?_, rfl⟩
      rw [CallRecord.callerEntry]
      split_ifs <;> simp
    · refine ⟨_, h.callee hcall, ?_, rfl⟩
      rw [CallRecord.calleeEntry]
      split_ifs <;> simp

end

namespace Network

variable {n : Network} {parties : Parties} {u id a b : Bytes} {s₀ : ServerState}

/-- With nothing under way, both sides of a call are in it exactly when the server has a record of it. -/
theorem InCallOrder.agree (h : n.InCallOrder parties) (hquiet : n.Quiescent)
    (hid : parties id = some (a, b)) :
    ((n.clients a).ActiveIn id ↔ n.server.callManager.calls[id]? ≠ none) ∧
      ((n.clients b).ActiveIn id ↔ n.server.callManager.calls[id]? ≠ none) := by
  have hups : ∀ v, upsAbout id (n.clients v).sent = [] := by
    intro v
    rw [hquiet.sent v]
    rfl
  have hdowns : ∀ v, downsAbout id (n.toClient v) = [] := by
    intro v
    rw [hquiet.toClient v]
    rfl
  have hagree := (h.calls hid).agree (hups a) (hups b) (hdowns a) (hdowns b)
  have hrecord : (n.project id a b).record ≠ none ↔ n.server.callManager.calls[id]? ≠ none :=
    not_congr Option.map_eq_none_iff
  rw [hrecord] at hagree
  rw [WebClient.activeIn_iff, WebClient.activeIn_iff]
  exact hagree

/-- **When nothing is under way, the clients and the server agree** about who is in which call, provided
that the server has read no cancellation of a call that it had accepted. -/
theorem clients_and_server_agree (hstart : Start s₀) (h : Reachable NoLateCancel s₀ n)
    (hquiet : n.Quiescent) (u callId : Bytes) :
    (n.clients u).ActiveIn callId ↔ n.server.callManager.Holds u callId := by
  obtain ⟨parties, hn⟩ := h.inCallOrder hstart
  rw [hn.coherent.inOrder.calls.consistent.holds_iff]
  constructor
  · intro hactive
    have hview := WebClient.activeIn_iff.mp hactive
    rw [CallSlot.viewOf] at hview
    split_ifs at hview with hid
    · have hpart := (hn.coherent.slot u).part hview
      rw [hid] at hpart
      cases hdirection : (n.clients u).slot.direction with
      | none =>
        rw [hdirection] at hpart
        exact hpart.elim
      | outgoing =>
        rw [hdirection] at hpart
        obtain ⟨call, hcall⟩ := Option.ne_none_iff_exists'.mp ((hn.agree hquiet hpart).1.mp hactive)
        have hnames := (hn.coherent.record _ _ hcall).1.symm.trans hpart
        exact ⟨call, hcall, .inl (Prod.mk.inj (Option.some.inj hnames)).1.symm⟩
      | incoming =>
        rw [hdirection] at hpart
        obtain ⟨call, hcall⟩ := Option.ne_none_iff_exists'.mp ((hn.agree hquiet hpart).2.mp hactive)
        have hnames := (hn.coherent.record _ _ hcall).1.symm.trans hpart
        exact ⟨call, hcall, .inr (Prod.mk.inj (Option.some.inj hnames)).2.symm⟩
    · exact absurd rfl hview
  · rintro ⟨call, hcall, hparty⟩
    have hagree := hn.agree hquiet (hn.coherent.record _ _ hcall).1
    have hsome : n.server.callManager.calls[callId]? ≠ none := by
      rw [hcall]
      nofun
    rcases hparty with rfl | rfl
    · exact hagree.1.mpr hsome
    · exact hagree.2.mpr hsome

/-! ### Runs of alice and bob -/

theorem start_aliceAndBob : Start aliceAndBob where
  serial := ⟨.empty, aliceAndBob_reachable⟩
  connected := by
    intro u connection hu
    have husers : aliceAndBob.userManager.users =
        ((∅ : Std.ExtTreeMap Bytes Conn compare).insert (ascii "alice") 1).insert (ascii "bob") 2 := by
      decide +kernel
    rw [husers, Tables.getElem?_insert, Tables.getElem?_insert] at hu
    split_ifs at hu
    · obtain rfl := Option.some.inj hu
      decide +kernel
    · obtain rfl := Option.some.inj hu
      decide +kernel
    · exact absurd hu (by simp)
  idle := by decide +kernel

/-- Alice calls bob, and bob's client rings. -/
def aliceCallsBob : List Move :=
  [.acts (ascii "alice") (.startVideoCall (ascii "bob") (ascii "c1")), .serves (ascii "alice") ⟨0, true⟩,
    .reads (ascii "bob")]

theorem aliceCallsBob_agree :
    ((((start aliceAndBob).play aliceCallsBob).clients (ascii "bob")).ActiveIn (ascii "c1") ↔
      ((start aliceAndBob).play aliceCallsBob).server.callManager.Holds (ascii "bob") (ascii "c1")) ∧
    (((start aliceAndBob).play aliceCallsBob).clients (ascii "bob")).call.phase = .incoming := by
  have hrun : Reachable NoLateCancel aliceAndBob ((start aliceAndBob).play aliceCallsBob) :=
    Reachable.start.play aliceCallsBob (by decide +kernel)
  have hquiet : ((start aliceAndBob).play aliceCallsBob).Quiescent :=
    quiescent_play [ascii "alice", ascii "bob"] (by decide +kernel) (by decide +kernel)
  exact ⟨clients_and_server_agree start_aliceAndBob hrun hquiet _ _, by decide +kernel⟩

/-- Bob accepts, and alice cancels before she learns of it: the server reads bob's acceptance first. -/
def aliceCancelsTooLate : List Move :=
  aliceCallsBob ++
    [.acts (ascii "bob") .acceptIncomingCall,
      .acts (ascii "bob") (.settle 0 (.resolved ⟨ascii "{}", rfl⟩)),
      .acts (ascii "alice") .cancelOutgoingCall, .serves (ascii "bob") ⟨0, true⟩,
      .serves (ascii "alice") ⟨0, true⟩, .reads (ascii "alice"), .reads (ascii "alice")]

/-- Nothing is under way, alice's client has finished its call, and the server has alice in the call. -/
theorem late_cancel_leaves_caller_in_call :
    ∃ s₀ n, Start s₀ ∧ Reachable (fun _ _ => True) s₀ n ∧ n.Quiescent ∧
      n.server.userManager.users[ascii "alice"]?.isSome ∧
      n.server.callManager.Holds (ascii "alice") (ascii "c1") ∧
        ¬ (n.clients (ascii "alice")).ActiveIn (ascii "c1") := by
  refine ⟨aliceAndBob, (start aliceAndBob).play aliceCancelsTooLate, start_aliceAndBob, ?_, ?_,
    by decide +kernel, ⟨⟨.inCall, ascii "c1", ascii "bob"⟩, by decide +kernel, by decide, rfl⟩, ?_⟩
  · have hplays : Plays (fun _ _ => True) (start aliceAndBob) aliceCancelsTooLate := by decide +kernel
    exact Reachable.start.play aliceCancelsTooLate hplays
  · exact quiescent_play [ascii "alice", ascii "bob"] (by decide +kernel) (by decide +kernel)
  · have hphase : (((start aliceAndBob).play aliceCancelsTooLate).clients (ascii "alice")).call.phase =
        .finished := by decide +kernel
    rintro ⟨hactive, -⟩
    rw [hphase] at hactive
    exact absurd hactive (by decide)

end Network

end ChatService
