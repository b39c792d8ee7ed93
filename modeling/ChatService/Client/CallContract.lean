import ChatService.Client.CallProtocol

/-!
# What the web client does about its call, in one step

A `CallSlot` is what the rest of the system can see of a client: whether it is in a call, as what, and with
whom.  `CallSlot.Acts` and `CallSlot.Reacts` say what a client may do to its slot and what it sends, on its
own and upon a message; `takes_onInput` and `takes_handleCallProtocolMessage` say that `app.js` and
`webrtc.js` do nothing else.

The asynchronous functions are the difficulty: one that was started for an earlier call may be resumed
during a later one.  `WebClient.Ok` is what keeps it from signaling then: it holds on to a `WebRtcCall` that
has been closed.
-/

namespace ChatService

open Byte

/-! ### Slots -/

/-- The part of a client in its call. -/
inductive CallView where
  | inactive
  | outgoing
  | incoming
  | talking
deriving DecidableEq, Repr

def CallPhase.view : CallPhase → CallView
  | idle => .inactive
  | outgoing => .outgoing
  | incoming => .incoming
  | connecting => .talking
  | inCall => .talking
  | finished => .inactive

/-- What the rest of the system can see of a client. -/
structure CallSlot where
  view : CallView
  callId : Bytes
  peer : Bytes
  direction : CallDirection
deriving DecidableEq

def WebClient.slot (c : WebClient) : CallSlot :=
  ⟨c.call.phase.view, c.call.callId, c.call.peer, c.call.direction⟩

/-- The message by which a client leaves its call. -/
def CallView.LeavesBy : CallView → CallType → Prop
  | inactive, _ => False
  | outgoing, type => type = .cancel ∨ type = .timeout
  | incoming, type => type = .reject
  | talking, type => type = .hangup

/-- The signaling of the two sides: offers come from the caller, answers from the callee. -/
def CallType.SignaledBy : CallType → CallDirection → Prop
  | offer, direction => direction = .outgoing
  | answer, direction => direction = .incoming
  | candidate, _ => True
  | _, _ => False

/-- What a client does on its own: the messages it sends, and its slot afterwards. -/
inductive CallSlot.Acts (username : Bytes) (input : ClientInput) (σ : CallSlot) :
    List ClientMessage → CallSlot → Prop where
  | stay : Acts username input σ [] σ
  | start {peer callId : Bytes} : input = .startVideoCall peer callId → σ.view = .inactive →
    peer ≠ username → callId ≠ [] → peer ≠ [] →
    Acts username input σ [⟨.invite, peer, callId, ascii "video"⟩] ⟨.outgoing, callId, peer, .outgoing⟩
  | reset {σ' : CallSlot} : σ.view = .inactive → σ'.view = .inactive → Acts username input σ [] σ'
  | leave {type : CallType} {payload : Bytes} : σ.view.LeavesBy type →
    Acts username input σ [⟨type, σ.peer, σ.callId, payload⟩] { σ with view := .inactive }
  | accept : σ.view = .incoming →
    Acts username input σ [⟨.accept, σ.peer, σ.callId, []⟩] { σ with view := .talking }
  | signal {type : CallType} {payload : Bytes} : σ.view = .talking → type.SignaledBy σ.direction →
    payload.head? = some lbrace → Acts username input σ [⟨type, σ.peer, σ.callId, payload⟩] σ

/-- The messages that end a call at the client that receives them. -/
def NoticeType.Ending : NoticeType → Prop
  | event .reject => True
  | event .cancel => True
  | event .hangup => True
  | event .timeout => True
  | busy => True
  | error => True
  | _ => False

/-- The signaling messages. -/
def NoticeType.Signaling : NoticeType → Prop
  | event .offer => True
  | event .answer => True
  | event .candidate => True
  | _ => False

/-- What a client does upon a message. -/
inductive CallSlot.Reacts (message : ServerMessage) (σ : CallSlot) :
    List ClientMessage → CallSlot → Prop where
  | ring : message.type = .event .invite → message.sender ≠ [] → message.callId ≠ [] →
    σ.view = .inactive →
    Reacts message σ [] ⟨.incoming, message.callId, message.sender, .incoming⟩
  | nobody : message.type = .event .invite → message.sender = [] ∨ message.callId = [] →
    Reacts message σ [] σ
  | decline : message.type = .event .invite → σ.view ≠ .inactive →
    Reacts message σ [⟨.reject, message.sender, message.callId, ascii "busy"⟩] σ
  | other : message.type ≠ .event .invite → message.callId = [] ∨ message.callId ≠ σ.callId →
    Reacts message σ [] σ
  | connect : message.type = .event .accept → message.callId = σ.callId → σ.view = .outgoing →
    Reacts message σ [] { σ with view := .talking }
  | late : message.type = .event .accept → σ.view ≠ .outgoing → Reacts message σ [] σ
  | ended : message.type.Ending → message.callId = σ.callId →
    Reacts message σ [] { σ with view := .inactive }
  | signaled : message.type.Signaling → Reacts message σ [] σ
  | hangup {payload : Bytes} : message.type.Signaling → message.callId = σ.callId →
    σ.view = .talking →
    Reacts message σ [⟨.hangup, σ.peer, σ.callId, payload⟩] { σ with view := .inactive }

/-! ### The invariant of a client -/

/-- The direction of the calls in which a promise is awaited, where it tells. -/
def AwaitedPromise.direction : AwaitedPromise → Option CallDirection
  | getUserMedia .startAsCaller => some .outgoing
  | createOffer => some .outgoing
  | setLocalOffer => some .outgoing
  | getUserMedia .receiveOffer => some .incoming
  | setRemoteOffer => some .incoming
  | flushCandidate _ .receiveOffer => some .incoming
  | createAnswer => some .incoming
  | setLocalAnswer => some .incoming
  | _ => none

namespace WebClient

/-- If the `WebRtcCall` `w` is the one of the current call, then this call has been accepted, and has the
right direction. -/
def Serves (c : WebClient) (w : ℕ) (direction : Option CallDirection) : Prop :=
  c.call.webrtc = some w →
    c.slot.view = .talking ∧ ∀ d, direction = some d → c.call.direction = d

/-- All `WebRtcCall`s but the current one are closed, and no asynchronous function uses one that has
not been made. -/
structure Tidy (c : WebClient) : Prop where
  made : ∀ w, c.call.webrtc = some w → w < c.made
  closed : ∀ w, c.call.webrtc ≠ some w → c.webrtcs w = .closed
  started : ∀ task ∈ c.tasks, task.webrtc < c.made
  named : c.slot.view ≠ .inactive → c.call.callId ≠ [] ∧ c.call.peer ≠ []

/-- Moreover, the current one is there for an incoming or an accepted call only, and an asynchronous
function that uses it belongs to the current call. -/
structure Ok (c : WebClient) : Prop extends Tidy c where
  answered : ∀ w, c.call.webrtc = some w → c.slot.view = .incoming ∨ c.slot.view = .talking
  connected : ∀ w, c.call.webrtc = some w → (c.webrtcs w).peerConnection ≠ none →
    c.slot.view = .talking
  tasks : ∀ task ∈ c.tasks, task.awaited ≠ .getUserMedia .acceptIncomingCall →
    c.Serves task.webrtc task.awaited.direction

/-- The client does one step of the kind `R`. -/
structure Takes (R : CallSlot → List ClientMessage → CallSlot → Prop) (c c' : WebClient) : Prop where
  username : c'.username = c.username
  ok : c'.Ok
  step : ∃ messages, c'.sent = c.sent ++ messages ∧ R c.slot messages c'.slot

/-- Nothing that others can see has changed. -/
structure Quiet (c c' : WebClient) : Prop where
  username : c'.username = c.username
  sent : c'.sent = c.sent
  slot : c'.slot = c.slot

theorem Tidy.ok {c : WebClient} (h : c.Tidy) (hnone : c.call.webrtc = none) : c.Ok where
  toTidy := h
  answered _ hw := absurd (hnone.symm.trans hw) nofun
  connected _ hw := absurd (hnone.symm.trans hw) nofun
  tasks _ _ _ hw := absurd (hnone.symm.trans hw) nofun

theorem ok_loggedIn (username : Bytes) : (loggedIn username).Ok := by
  refine Tidy.ok ⟨nofun, fun _ _ => rfl, nofun, fun h => absurd rfl h⟩ rfl

section

variable {c c' c'' : WebClient} {R : CallSlot → List ClientMessage → CallSlot → Prop} {w : ℕ}

theorem Quiet.takes (h : Quiet c c') (ht : Takes R c' c'') : Takes R c c'' := by
  obtain ⟨messages, hsent, hstep⟩ := ht.step
  refine ⟨ht.username.trans h.username, ht.ok, messages, ?_, ?_⟩
  · rw [hsent, h.sent]
  · rw [← h.slot]
    exact hstep

/-- A step that nobody can see. -/
theorem Quiet.stay (h : Quiet c c') (hok : c'.Ok) (hR : R c.slot [] c.slot) : Takes R c c' := by
  refine ⟨h.username, hok, [], ?_, ?_⟩
  · rw [h.sent, List.append_nil]
  · rw [h.slot]
    exact hR

/-- The current `WebRtcCall` is the only one that may be open. -/
theorem Tidy.current (h : c.Tidy) (hw : c.webrtcs w ≠ .closed) : c.call.webrtc = some w := by
  by_contra hne
  exact hw (h.closed w hne)

theorem Tidy.current_of_peerConnection (h : c.Tidy) (hw : (c.webrtcs w).peerConnection ≠ none) :
    c.call.webrtc = some w := by
  refine h.current fun hclosed => ?_
  rw [hclosed] at hw
  exact hw rfl

/-! ### Updates that nobody can see -/

/-- The current `WebRtcCall` changes. -/
theorem Tidy.withWebRtc (h : c.Tidy) {value : WebRtcCall} (hw : c.call.webrtc = some w) :
    (c.withWebRtc w value).Tidy := by
  refine ⟨h.made, ?_, h.started, h.named⟩
  intro w' hw'
  have hne : w' ≠ w := by
    rintro rfl
    exact hw' hw
  exact (Function.update_of_ne hne _ _).trans (h.closed w' hw')

theorem Ok.withWebRtc (h : c.Ok) {value : WebRtcCall} (hw : c.call.webrtc = some w)
    (hvalue : value.peerConnection ≠ none → c.slot.view = .talking) : (c.withWebRtc w value).Ok := by
  refine ⟨h.toTidy.withWebRtc hw, h.answered, ?_, h.tasks⟩
  intro w' hw' hpeer
  obtain rfl : w = w' := Option.some.inj (hw.symm.trans hw')
  refine hvalue ?_
  rwa [show (c.withWebRtc w value).webrtcs w = value from Function.update_self ..] at hpeer

theorem quiet_withWebRtc (c : WebClient) (w : ℕ) (value : WebRtcCall) :
    Quiet c (c.withWebRtc w value) := ⟨rfl, rfl, rfl⟩

/-- Any `WebRtcCall` may change, if it is not opened. -/
theorem Ok.update (h : c.Ok) {value : WebRtcCall}
    (hpeer : value.peerConnection ≠ none → (c.webrtcs w).peerConnection ≠ none)
    (hclosed : c.webrtcs w = .closed → value = .closed) : (c.withWebRtc w value).Ok := by
  by_cases hw : c.call.webrtc = some w
  · exact h.withWebRtc hw fun hvalue => h.connected w hw (hpeer hvalue)
  · have hsame : c.withWebRtc w value = c := by
      show { c with webrtcs := Function.update c.webrtcs w value } = c
      rw [hclosed (h.closed w hw), ← h.closed w hw, Function.update_eq_self]
    rw [hsame]
    exact h

theorem Ok.close (h : c.Ok) (w : ℕ) : (c.close w).Ok :=
  h.update (fun hnone => absurd rfl hnone) fun _ => rfl

theorem quiet_close (c : WebClient) (w : ℕ) : Quiet c (c.close w) := quiet_withWebRtc ..

theorem quiet_cleanupWebRtc (c : WebClient) : Quiet c c.cleanupWebRtc := by
  rw [cleanupWebRtc]
  split
  · exact ⟨rfl, rfl, rfl⟩
  · exact ⟨rfl, rfl, rfl⟩

theorem webrtc_cleanupWebRtc (c : WebClient) : c.cleanupWebRtc.call.webrtc = none := by
  rw [cleanupWebRtc]
  split
  · next h => exact h
  · rfl

theorem Tidy.cleanupWebRtc (h : c.Tidy) : c.cleanupWebRtc.Ok := by
  refine Tidy.ok ?_ (webrtc_cleanupWebRtc c)
  rw [WebClient.cleanupWebRtc]
  split
  · exact h
  · next w hw =>
    refine ⟨nofun, ?_, h.started, h.named⟩
    intro w' _
    by_cases hne : w' = w
    · subst hne
      exact Function.update_self ..
    · exact (Function.update_of_ne hne _ _).trans (h.closed w' fun h' =>
        hne (Option.some.inj (h'.symm.trans hw)))

/-! ### Updates of the call -/

/-- A call without a `WebRtcCall`. -/
theorem Tidy.withCall (h : c.Tidy) {call : ClientCall} (hnone : c.call.webrtc = none)
    (hcall : call.webrtc = none)
    (hnamed : call.phase.view ≠ .inactive → call.callId ≠ [] ∧ call.peer ≠ []) :
    (c.withCall call).Ok := by
  refine Tidy.ok ⟨?_, fun w _ => h.closed w ?_, h.started, hnamed⟩ hcall
  · exact fun w hw => absurd (hcall.symm.trans hw) nofun
  · rw [hnone]
    exact nofun

/-- What nobody can see may change. -/
theorem Ok.sameSlot (h : c.Ok) {call : ClientCall} (hwebrtc : call.webrtc = c.call.webrtc)
    (hslot : (c.withCall call).slot = c.slot) : (c.withCall call).Ok := by
  have hview : call.phase.view = c.slot.view := congrArg CallSlot.view hslot
  have hid : call.callId = c.call.callId := congrArg CallSlot.callId hslot
  have hpeer : call.peer = c.call.peer := congrArg CallSlot.peer hslot
  have hdirection : call.direction = c.call.direction := congrArg CallSlot.direction hslot
  refine ⟨⟨fun w hw => h.made w (hwebrtc ▸ hw), fun w hw => h.closed w (hwebrtc ▸ hw), h.started, ?_⟩,
    ?_, ?_, ?_⟩
  · show call.phase.view ≠ .inactive → call.callId ≠ [] ∧ call.peer ≠ []
    rw [hview, hid, hpeer]
    exact h.named
  · intro w hw
    show call.phase.view = .incoming ∨ call.phase.view = .talking
    rw [hview]
    exact h.answered w (hwebrtc ▸ hw)
  · intro w hw hopen
    show call.phase.view = .talking
    rw [hview]
    exact h.connected w (hwebrtc ▸ hw) hopen
  · intro task htask hnext hw
    show call.phase.view = .talking ∧ ∀ d, _ → call.direction = d
    rw [hview, hdirection]
    exact h.tasks task htask hnext (hwebrtc ▸ hw)

theorem Tidy.finishCall (h : c.Tidy) : c.finishCall.Ok := by
  have hclean : c.clearCallTimeout.cleanupWebRtc.Ok :=
    Tidy.cleanupWebRtc ⟨h.made, h.closed, h.started, h.named⟩
  exact hclean.toTidy.withCall (webrtc_cleanupWebRtc _) (webrtc_cleanupWebRtc _)
    fun hactive => absurd rfl hactive

theorem finishCall_of_none (hnone : c.call.webrtc = none) :
    c.finishCall = c.withCall { c.call with timeoutId := none, phase := .finished } := by
  have hcleanup : c.clearCallTimeout.cleanupWebRtc = c.clearCallTimeout := by
    rw [WebClient.cleanupWebRtc]
    split
    · rfl
    · next w hw => exact absurd (hnone.symm.trans hw) nofun
  rw [WebClient.finishCall, hcleanup]
  rfl

/-- A call that is finished is over for everybody else. -/
theorem finishCall_slot (c : WebClient) : c.finishCall.slot = { c.slot with view := .inactive } ∧
    c.finishCall.sent = c.sent ∧ c.finishCall.username = c.username := by
  have hclean : Quiet c.clearCallTimeout c.clearCallTimeout.cleanupWebRtc := quiet_cleanupWebRtc _
  obtain ⟨husername, hsent, hslot⟩ := hclean
  have hid : c.clearCallTimeout.cleanupWebRtc.call.callId = c.call.callId :=
    congrArg CallSlot.callId hslot
  have hpeer : c.clearCallTimeout.cleanupWebRtc.call.peer = c.call.peer :=
    congrArg CallSlot.peer hslot
  have hdirection : c.clearCallTimeout.cleanupWebRtc.call.direction = c.call.direction :=
    congrArg CallSlot.direction hslot
  refine ⟨?_, hsent, husername⟩
  show (⟨_, c.clearCallTimeout.cleanupWebRtc.call.callId,
    c.clearCallTimeout.cleanupWebRtc.call.peer,
    c.clearCallTimeout.cleanupWebRtc.call.direction⟩ : CallSlot) = _
  rw [hid, hpeer, hdirection]
  rfl

theorem Tidy.resetCallState (h : c.Tidy) : c.resetCallState.Ok := by
  have hclean : c.clearCallTimeout.cleanupWebRtc.Ok :=
    Tidy.cleanupWebRtc ⟨h.made, h.closed, h.started, h.named⟩
  exact hclean.toTidy.withCall (webrtc_cleanupWebRtc _) (webrtc_cleanupWebRtc _)
    fun hactive => absurd rfl hactive

theorem resetCallState_eq (c : WebClient) : c.resetCallState.sent = c.sent ∧
    c.resetCallState.username = c.username ∧ c.resetCallState.slot.view = .inactive ∧
      c.resetCallState.call.webrtc = none := by
  have hclean : Quiet c.clearCallTimeout c.clearCallTimeout.cleanupWebRtc := quiet_cleanupWebRtc _
  exact ⟨hclean.sent, hclean.username, rfl, webrtc_cleanupWebRtc _⟩

/-! ### Leaving a call -/

theorem sendCurrentCallMessage_of_unnamed {type : CallType} {payload : Bytes}
    (h : c.call.callId = [] ∨ c.call.peer = []) :
    c.sendCurrentCallMessage type payload = (false, c) := if_pos h

theorem sendCurrentCallMessage_of_named {type : CallType} {payload : Bytes}
    (h : ¬ (c.call.callId = [] ∨ c.call.peer = [])) : c.sendCurrentCallMessage type payload =
      (true, c.sendMessage ⟨type, c.call.peer, c.call.callId, payload⟩) := if_neg h

/-- A client in a call can send about it. -/
theorem sendCurrentCallMessage_eq (h : c.Tidy) (hactive : c.slot.view ≠ .inactive) (type : CallType)
    (payload : Bytes) : c.sendCurrentCallMessage type payload =
      (true, c.sendMessage ⟨type, c.call.peer, c.call.callId, payload⟩) :=
  sendCurrentCallMessage_of_named (not_or.mpr (h.named hactive))

theorem Ok.sendMessage (h : c.Ok) (message : ClientMessage) : (c.sendMessage message).Ok :=
  ⟨⟨h.made, h.closed, h.started, h.named⟩, h.answered, h.connected, h.tasks⟩

/-- The steps with which nothing happens, or the client leaves its call. -/
structure Permits (R : CallSlot → List ClientMessage → CallSlot → Prop) (σ : CallSlot) : Prop where
  stay : R σ [] σ
  leave : ∀ {type : CallType} {payload : Bytes}, σ.view.LeavesBy type →
    R σ [⟨type, σ.peer, σ.callId, payload⟩] { σ with view := .inactive }

/-- The client sends how it leaves its call, and finishes it. -/
theorem takes_leave (h : c.Ok) (hR : Permits R c.slot) {type : CallType} {payload : Bytes}
    (hleave : c.slot.view.LeavesBy type) :
    Takes R c (c.sendCurrentCallMessage type payload).2.finishCall := by
  have hactive : c.slot.view ≠ .inactive := by
    intro hview
    rw [hview] at hleave
    exact hleave
  rw [sendCurrentCallMessage_eq h.toTidy hactive]
  obtain ⟨hslot, hsent, husername⟩ :=
    finishCall_slot (c.sendMessage ⟨type, c.call.peer, c.call.callId, payload⟩)
  refine ⟨husername, (h.sendMessage _).toTidy.finishCall, _, hsent, ?_⟩
  rw [hslot]
  exact hR.leave hleave

theorem hasCurrentCall_iff : c.hasCurrentCall = true ↔ c.slot.view ≠ .inactive := by
  show decide _ = true ↔ c.call.phase.view ≠ .inactive
  cases c.call.phase <;> decide

theorem hasCurrentCall_eq_false_iff : c.hasCurrentCall = false ↔ c.slot.view = .inactive := by
  rw [← Bool.not_eq_true, hasCurrentCall_iff, not_not]

/-- A failure ends the call, in the way in which the client would have left it. -/
theorem takes_handleLocalCallFailure (h : c.Ok) (hR : Permits R c.slot) :
    Takes R c c.handleLocalCallFailure := by
  rw [handleLocalCallFailure]
  split_ifs with hnone hincoming htalking
  · exact Quiet.stay ⟨rfl, rfl, rfl⟩ h hR.stay
  · refine takes_leave h hR ?_
    show c.call.phase.view.LeavesBy _
    rw [hincoming]
    rfl
  · refine takes_leave h hR ?_
    show c.call.phase.view.LeavesBy _
    rcases htalking with hphase | hphase
    · rw [hphase]
      rfl
    · rw [hphase]
      rfl
  · refine takes_leave h hR ?_
    have houtgoing : c.call.phase = .outgoing := by
      rw [hasCurrentCall_eq_false_iff] at hnone
      revert hnone hincoming htalking
      show c.call.phase.view ≠ _ → _
      cases c.call.phase <;> simp [CallPhase.view]
    show c.call.phase.view.LeavesBy _
    rw [houtgoing]
    exact .inl rfl

/-! ### Waiting -/

/-- A function that uses a `WebRtcCall` waits. -/
theorem Ok.await (h : c.Ok) {callId : Bytes} {awaited : AwaitedPromise} (hw : w < c.made)
    (hserves : awaited ≠ .getUserMedia .acceptIncomingCall → c.Serves w awaited.direction) :
    (c.await w callId awaited).Ok := by
  refine ⟨⟨h.made, h.closed, ?_, h.named⟩, h.answered, h.connected, ?_⟩
  · intro task htask
    rcases List.mem_append.mp htask with htask | htask
    · exact h.started task htask
    · obtain rfl := List.mem_singleton.mp htask
      exact hw
  · intro task htask
    rcases List.mem_append.mp htask with htask | htask
    · exact h.tasks task htask
    · obtain rfl := List.mem_singleton.mp htask
      exact hserves

theorem quiet_await (c : WebClient) (w : ℕ) (callId : Bytes) (awaited : AwaitedPromise) :
    Quiet c (c.await w callId awaited) := ⟨rfl, rfl, rfl⟩

theorem takes_awaitPeerConnection (h : c.Ok) (hR : Permits R c.slot) {callId : Bytes}
    {awaited : AwaitedPromise} (hw : w < c.made) (hserves : c.Serves w awaited.direction) :
    Takes R c (c.awaitPeerConnection w callId awaited) := by
  rw [awaitPeerConnection]
  split_ifs
  · exact takes_handleLocalCallFailure h hR
  · exact (quiet_await ..).stay (h.await hw fun _ => hserves) hR.stay

/-! ### `WebRtcCall`s of the current call -/

/-- `ensureWebRtc` gives the `WebRtcCall` of the current call. -/
theorem ensureWebRtc_spec (h : c.Ok) (hview : c.slot.view = .incoming ∨ c.slot.view = .talking) :
    c.ensureWebRtc.2.Ok ∧ Quiet c c.ensureWebRtc.2 ∧
      c.ensureWebRtc.2.call.webrtc = some c.ensureWebRtc.1 := by
  rw [ensureWebRtc]
  split
  · next w hw => exact ⟨h, ⟨rfl, rfl, rfl⟩, hw⟩
  · next hnone =>
    refine ⟨⟨⟨?_, ?_, ?_, h.named⟩, fun _ _ => hview, ?_, ?_⟩, ⟨rfl, rfl, rfl⟩, rfl⟩
    · intro w hw
      obtain rfl := Option.some.inj hw
      exact Nat.lt_succ_self _
    · intro w hw
      have hne : w ≠ c.made := by
        rintro rfl
        exact hw rfl
      refine (Function.update_of_ne hne _ _).trans (h.closed w ?_)
      rw [hnone]
      exact nofun
    · exact fun task htask => Nat.lt_succ_of_lt (h.started task htask)
    · intro w hw hpeer
      obtain rfl := Option.some.inj hw
      refine absurd ?_ hpeer
      show (Function.update c.webrtcs c.made _ c.made).peerConnection = none
      rw [Function.update_self]
    · -- nothing waits for what has just been made
      intro task htask _ hw
      exact absurd (Option.some.inj hw).symm (h.started task htask).ne

/-- The callers of `prepareMedia` other than `acceptIncomingCall` go on. -/
theorem takes_mediaReady (h : c.Ok) (hR : Permits R c.slot) {callId : Bytes} {next : MediaNext}
    (hw : w < c.made) (hnext : next ≠ .acceptIncomingCall)
    (hserves : c.Serves w (AwaitedPromise.getUserMedia next).direction) :
    Takes R c (c.mediaReady w callId next) := by
  cases next with
  | acceptIncomingCall => exact absurd rfl hnext
  | startAsCaller => exact takes_awaitPeerConnection h hR hw hserves
  | receiveOffer => exact takes_awaitPeerConnection h hR hw hserves

/-- `prepareMedia` asks for the media. -/
theorem Ok.requestMedia (h : c.Ok) {callId : Bytes} {next : MediaNext} (hw : c.call.webrtc = some w)
    (hserves : next ≠ .acceptIncomingCall → c.Serves w (AwaitedPromise.getUserMedia next).direction) :
    ((c.withWebRtc w { c.webrtcs w with closing := false }).await w callId
      (.getUserMedia next)).Ok := by
  have hopen : (c.withWebRtc w { c.webrtcs w with closing := false }).Ok :=
    h.withWebRtc hw fun hpeer => h.connected w hw hpeer
  exact hopen.await (h.made w hw) fun hne => hserves fun heq => hne (by rw [heq])

/-- `prepareMedia` asks for the media, or goes on. -/
theorem takes_prepareMedia (h : c.Ok) (hR : Permits R c.slot) {callId : Bytes} {next : MediaNext}
    (hw : c.call.webrtc = some w) (hnext : next = .acceptIncomingCall → c.slot.view = .incoming)
    (hserves : next ≠ .acceptIncomingCall → c.Serves w (AwaitedPromise.getUserMedia next).direction) :
    Takes R c (c.prepareMedia w callId next) := by
  rw [prepareMedia]
  split_ifs with hready
  · have htalking : c.slot.view = .talking := h.connected w hw hready.2
    have hne : next ≠ .acceptIncomingCall := by
      intro heq
      exact absurd ((hnext heq).symm.trans htalking) (by decide)
    exact takes_mediaReady h hR (h.made w hw) hne (hserves hne)
  · exact Quiet.stay ⟨rfl, rfl, rfl⟩ (h.requestMedia hw hserves) hR.stay

end

/-! ### Tasks -/

section

variable {c : WebClient} {w : ℕ} {username : Bytes} {input : ClientInput}

theorem permits_acts (username : Bytes) (input : ClientInput) (σ : CallSlot) :
    Permits (CallSlot.Acts username input) σ := ⟨.stay, .leave⟩

/-- The callers of `prepareMedia` after an error. -/
theorem takes_mediaFailed (h : c.Ok) (callId : Bytes) (next : MediaNext) :
    Takes (CallSlot.Acts username input) c (c.mediaFailed callId next) := by
  cases next with
  | startAsCaller => exact takes_handleLocalCallFailure h (permits_acts ..)
  | receiveOffer => exact takes_handleLocalCallFailure h (permits_acts ..)
  | acceptIncomingCall =>
    rw [mediaFailed]
    split_ifs with hincoming
    · refine takes_leave h (permits_acts ..) ?_
      show c.call.phase.view.LeavesBy _
      rw [hincoming.1]
      rfl
    · exact Quiet.stay ⟨rfl, rfl, rfl⟩ h .stay

/-- The user has accepted the call, and there are media: the client accepts it, unless it is over. -/
theorem takes_accepted (h : c.Ok) {callId : Bytes} {value : WebRtcCall}
    (hw : c.call.webrtc = some w) : Takes (CallSlot.Acts username input) c
      ((c.withWebRtc w value).mediaReady w callId .acceptIncomingCall) := by
  have htidy : (c.withWebRtc w value).Tidy := h.toTidy.withWebRtc hw
  rw [mediaReady]
  split_ifs with hover
  · have hquiet := quiet_cleanupWebRtc (c.withWebRtc w value)
    exact Quiet.stay ⟨hquiet.username, hquiet.sent, hquiet.slot⟩ htidy.cleanupWebRtc .stay
  · obtain ⟨hphase, -⟩ := not_or.mp hover
    have hincoming : c.call.phase = .incoming := not_not.mp hphase
    have hview : c.slot.view = .incoming := congrArg CallPhase.view hincoming
    obtain ⟨hid, hpeer⟩ := h.named (by rw [hview]; decide)
    -- the new state, before the message is sent
    have hok : (((c.withWebRtc w value).withPhase .connecting).startMediaConnectionTimeout).Ok := by
      refine ⟨⟨htidy.made, htidy.closed, htidy.started, fun _ => ⟨hid, hpeer⟩⟩, fun _ _ => .inr rfl,
        fun _ _ _ => rfl, ?_⟩
      intro task htask hnext hcurrent
      obtain ⟨htalking, -⟩ := h.tasks task htask hnext hcurrent
      exact absurd (hview.symm.trans htalking) (by decide)
    have hactive : CallView.talking ≠ .inactive := by decide
    dsimp only
    rw [sendCurrentCallMessage_eq hok.toTidy hactive]
    refine ⟨rfl, hok.sendMessage _, _, rfl, ?_⟩
    exact .accept hview

/-- `prepareMedia` goes on. -/
theorem takes_gotUserMedia (h : c.Ok) {callId : Bytes} {next : MediaNext} (hw : w < c.made)
    (hserves : next ≠ .acceptIncomingCall → c.Serves w (AwaitedPromise.getUserMedia next).direction) :
    Takes (CallSlot.Acts username input) c (c.gotUserMedia w callId next) := by
  rw [gotUserMedia]
  split_ifs with hclosing
  · exact (quiet_close c w).takes (takes_mediaFailed (h.close w) callId next)
  · have hcurrent : c.call.webrtc = some w := by
      refine h.toTidy.current fun hclosed => hclosing ?_
      rw [hclosed]
      rfl
    by_cases hnext : next = .acceptIncomingCall
    · rw [hnext]
      exact takes_accepted h hcurrent
    · have hopen : (c.withWebRtc w { c.webrtcs w with
          localStream := true
          peerConnection := some (((c.webrtcs w).peerConnection).getD ⟨false⟩) }).Ok :=
        h.withWebRtc hcurrent fun _ => (hserves hnext hcurrent).1
      exact (quiet_withWebRtc ..).takes
        (takes_mediaReady hopen (permits_acts ..) hw hnext (hserves hnext))

theorem takes_flushed (h : c.Ok) {callId : Bytes} {next : FlushNext} (hw : w < c.made)
    (hserves : c.Serves w (AwaitedPromise.flushCandidate 0 next).direction) :
    Takes (CallSlot.Acts username input) c (c.flushed w callId next) := by
  cases next with
  | receiveOffer => exact takes_awaitPeerConnection h (permits_acts ..) hw hserves
  | receiveAnswer => exact Quiet.stay ⟨rfl, rfl, rfl⟩ h .stay

theorem takes_flushCandidates (h : c.Ok) {callId : Bytes} {next : FlushNext} {rest : ℕ}
    (hw : w < c.made) (hserves : c.Serves w (AwaitedPromise.flushCandidate 0 next).direction) :
    Takes (CallSlot.Acts username input) c (c.flushCandidates w callId next rest) := by
  cases rest with
  | zero => exact takes_flushed h hw hserves
  | succ rest =>
    refine takes_awaitPeerConnection h (permits_acts ..) hw ?_
    cases next with
    | receiveOffer => exact hserves
    | receiveAnswer => exact hserves

theorem takes_flushPendingIceCandidates (h : c.Ok) {callId : Bytes} {next : FlushNext}
    (hw : w < c.made) (hserves : c.Serves w (AwaitedPromise.flushCandidate 0 next).direction) :
    Takes (CallSlot.Acts username input) c (c.flushPendingIceCandidates w callId next) := by
  rw [flushPendingIceCandidates]
  split
  · exact takes_flushed h hw hserves
  · next hpeer =>
    split_ifs
    · exact takes_flushed h hw hserves
    · have hemptied : (c.withWebRtc w { c.webrtcs w with pendingIceCandidates := 0 }).Ok := by
        refine h.update id fun hclosed => ?_
        rw [hclosed]
        rfl
      exact (quiet_withWebRtc ..).takes (takes_flushCandidates hemptied hw hserves)

theorem takes_remoteDescriptionSet (h : c.Ok) {callId : Bytes} {next : FlushNext} (hw : w < c.made)
    (hserves : c.Serves w (AwaitedPromise.flushCandidate 0 next).direction) :
    Takes (CallSlot.Acts username input) c (c.remoteDescriptionSet w callId next) := by
  have hset : (c.withWebRtc w { c.webrtcs w with
      peerConnection := (c.webrtcs w).peerConnection.map fun _ => ⟨true⟩ }).Ok := by
    refine h.update ?_ ?_
    · intro hpeer hnone
      rw [hnone] at hpeer
      exact hpeer rfl
    · intro hclosed
      rw [hclosed]
      rfl
  exact (quiet_withWebRtc ..).takes (takes_flushPendingIceCandidates hset hw hserves)

/-- A local description is sent about the current call, and by the right side. -/
theorem takes_sendDescription (h : c.Ok) {type : CallType} {description : ObjectText}
    (hserves : c.call.webrtc = some w → c.slot.view = .talking ∧
      type.SignaledBy c.call.direction) :
    Takes (CallSlot.Acts username input) c (c.sendDescription w type description) := by
  rw [sendDescription]
  split_ifs with hpeer
  · exact takes_handleLocalCallFailure h (permits_acts ..)
  · obtain ⟨htalking, hsignaled⟩ := hserves (h.current_of_peerConnection hpeer)
    rw [sendCurrentCallMessage_eq h.toTidy (by rw [htalking]; decide)]
    exact ⟨rfl, h.sendMessage _, _, rfl, .signal htalking hsignaled description.brace⟩

/-- A promise that a function waits for has been resolved. -/
theorem takes_onResolved (h : c.Ok) {callId : Bytes} {description : ObjectText} {awaited : AwaitedPromise}
    (hw : w < c.made)
    (hserves : awaited ≠ .getUserMedia .acceptIncomingCall → c.Serves w awaited.direction) :
    Takes (CallSlot.Acts username input) c (c.onResolved w callId description awaited) := by
  cases awaited with
  | getUserMedia next => exact takes_gotUserMedia h hw fun hne => hserves fun heq => hne (by simpa using heq)
  | createOffer => exact takes_awaitPeerConnection h (permits_acts ..) hw (hserves nofun)
  | setLocalOffer =>
    refine takes_sendDescription h fun hcurrent => ?_
    obtain ⟨htalking, hdirection⟩ := hserves nofun hcurrent
    exact ⟨htalking, hdirection _ rfl⟩
  | setRemoteOffer => exact takes_remoteDescriptionSet h hw (hserves nofun)
  | flushCandidate rest next =>
    refine takes_flushCandidates h hw ?_
    cases next with
    | receiveOffer => exact hserves nofun
    | receiveAnswer => exact hserves nofun
  | createAnswer => exact takes_awaitPeerConnection h (permits_acts ..) hw (hserves nofun)
  | setLocalAnswer =>
    refine takes_sendDescription h fun hcurrent => ?_
    obtain ⟨htalking, hdirection⟩ := hserves nofun hcurrent
    exact ⟨htalking, hdirection _ rfl⟩
  | setRemoteAnswer => exact takes_remoteDescriptionSet h hw (hserves nofun)
  | addIceCandidate => exact Quiet.stay ⟨rfl, rfl, rfl⟩ h .stay

/-- A promise that a function waits for has been rejected. -/
theorem takes_onRejected (h : c.Ok) {callId : Bytes} {awaited : AwaitedPromise} :
    Takes (CallSlot.Acts username input) c (c.onRejected w callId awaited) := by
  cases awaited with
  | getUserMedia next => exact (quiet_close c w).takes (takes_mediaFailed (h.close w) callId next)
  | _ => exact takes_handleLocalCallFailure h (permits_acts ..)

theorem takes_settle (h : c.Ok) (index : ℕ) (settled : Settled) :
    Takes (CallSlot.Acts username input) c (c.settle index settled) := by
  rw [settle]
  split
  · exact Quiet.stay ⟨rfl, rfl, rfl⟩ h .stay
  · next task htask =>
    have hmem : task ∈ c.tasks := List.mem_of_getElem? htask
    have hrest : ({ c with tasks := c.tasks.eraseIdx index } : WebClient).Ok := by
      have hsub : ∀ task' ∈ c.tasks.eraseIdx index, task' ∈ c.tasks :=
        fun task' htask' => List.mem_of_mem_eraseIdx htask'
      exact ⟨⟨h.made, h.closed, fun task' htask' => h.started task' (hsub task' htask'), h.named⟩,
        h.answered, h.connected, fun task' htask' => h.tasks task' (hsub task' htask')⟩
    have hquiet : Quiet c { c with tasks := c.tasks.eraseIdx index } := ⟨rfl, rfl, rfl⟩
    cases settled with
    | rejected => exact hquiet.takes (takes_onRejected hrest)
    | resolved description =>
      exact hquiet.takes (takes_onResolved hrest (h.started task hmem) (h.tasks task hmem))

/-- The listeners of a peer connection that is not closed. -/
theorem takes_onConnectionEvent (h : c.Ok) {event : ConnectionEvent}
    (hopen : (c.webrtcs w).peerConnection ≠ none) :
    Takes (CallSlot.Acts username input) c (c.onConnectionEvent w event) := by
  have htalking : c.slot.view = .talking := h.connected w (h.current_of_peerConnection hopen) hopen
  have hconnected : Takes (CallSlot.Acts username input) c c.onConnected := by
    have hactive : c.slot.view ≠ .inactive := by
      rw [htalking]
      decide
    have hslot : (c.clearCallTimeout.withPhase .inCall).slot = c.slot := by
      show (⟨.talking, c.call.callId, c.call.peer, c.call.direction⟩ : CallSlot) = _
      rw [← htalking]
      rfl
    rw [onConnected, if_pos (hasCurrentCall_iff.mpr hactive)]
    refine Quiet.stay ⟨rfl, rfl, ?_⟩ ?_ .stay
    · exact hslot
    · exact h.sameSlot rfl hslot
  cases event with
  | icecandidate candidate =>
    rw [onConnectionEvent, sendCurrentCallMessage_eq h.toTidy (by rw [htalking]; decide)]
    exact ⟨rfl, h.sendMessage _, _, rfl, .signal htalking trivial candidate.brace⟩
  | track => exact hconnected
  | connected =>
    rw [onConnectionEvent]
    split_ifs
    · exact Quiet.stay ⟨rfl, rfl, rfl⟩ h .stay
    · exact hconnected
  | failed =>
    rw [onConnectionEvent]
    split_ifs
    · exact Quiet.stay ⟨rfl, rfl, rfl⟩ h .stay
    · exact takes_handleLocalCallFailure h (permits_acts ..)

/-! ### The buttons and the timer -/

/-- The last call is dismissed before a new one begins. -/
theorem dismissed_spec (h : c.Ok) (hinactive : c.slot.view = .inactive) {c' : WebClient}
    (hc : c' = if c.call.phase = .finished then c.resetCallState else c) :
    c'.Ok ∧ c'.call.webrtc = none ∧ c'.sent = c.sent ∧ c'.username = c.username := by
  rw [hc]
  split_ifs
  · obtain ⟨hsent, husername, -, hnone⟩ := resetCallState_eq c
    exact ⟨h.toTidy.resetCallState, hnone, hsent, husername⟩
  · refine ⟨h, ?_, rfl, rfl⟩
    cases hw : c.call.webrtc with
    | none => rfl
    | some w =>
      rcases h.answered w hw with hview | hview
      · exact absurd (hinactive.symm.trans hview) (by decide)
      · exact absurd (hinactive.symm.trans hview) (by decide)

theorem takes_startVideoCall (h : c.Ok) (peer callId : Bytes) :
    Takes (CallSlot.Acts c.username (.startVideoCall peer callId)) c (c.startVideoCall peer callId) := by
  rw [startVideoCall]
  by_cases hself : peer = c.username
  · rw [if_pos hself]
    exact Quiet.stay ⟨rfl, rfl, rfl⟩ h .stay
  rw [if_neg hself]
  by_cases hcurrent : c.hasCurrentCall
  · rw [if_pos hcurrent]
    exact Quiet.stay ⟨rfl, rfl, rfl⟩ h .stay
  rw [if_neg hcurrent]
  have hinactive : c.slot.view = .inactive :=
    hasCurrentCall_eq_false_iff.mp (Bool.not_eq_true _ ▸ hcurrent)
  dsimp only
  generalize hdismissed : (if c.call.phase = .finished then c.resetCallState else c) = c₀
  obtain ⟨hok, hnone, hsent, husername⟩ := dismissed_spec h hinactive hdismissed.symm
  have hcalling : c₀.withCall { c₀.call with
      phase := .outgoing, callId := callId, peer := peer, direction := .outgoing } =
      c₀.withCall ⟨.outgoing, callId, peer, .outgoing, c₀.call.timeoutId, none⟩ := by
    rw [← hnone]
  rw [hcalling]
  by_cases hnames : callId = [] ∨ peer = []
  · -- there is nothing to send about, and the call is finished at once
    rw [sendCurrentCallMessage_of_unnamed
      (c := c₀.withCall ⟨.outgoing, callId, peer, .outgoing, c₀.call.timeoutId, none⟩) hnames]
    show Takes _ c (c₀.withCall _).finishCall
    rw [finishCall_of_none rfl]
    refine ⟨husername, hok.toTidy.withCall hnone rfl fun hactive => absurd rfl hactive, [], ?_,
      .reset hinactive rfl⟩
    rw [List.append_nil]
    exact hsent
  · rw [sendCurrentCallMessage_of_named
      (c := c₀.withCall ⟨.outgoing, callId, peer, .outgoing, c₀.call.timeoutId, none⟩) hnames]
    refine ⟨husername, ?_, [⟨.invite, peer, callId, ascii "video"⟩], ?_,
      .start rfl hinactive hself (not_or.mp hnames).1 (not_or.mp hnames).2⟩
    · have hwaiting : (c₀.withCall
          ⟨.outgoing, callId, peer, .outgoing, some (.noAnswer callId), none⟩).Ok :=
        hok.toTidy.withCall hnone rfl fun _ => not_or.mp hnames
      exact hwaiting.sendMessage _
    · show c₀.sent ++ _ = c.sent ++ _
      rw [hsent]
      rfl

theorem takes_acceptIncomingCall (h : c.Ok) :
    Takes (CallSlot.Acts username input) c c.acceptIncomingCall := by
  rw [acceptIncomingCall]
  split_ifs with hphase
  · exact Quiet.stay ⟨rfl, rfl, rfl⟩ h .stay
  · have hincoming : c.slot.view = .incoming := congrArg CallPhase.view (not_not.mp hphase)
    obtain ⟨hok, hquiet, hwebrtc⟩ := ensureWebRtc_spec h (.inl hincoming)
    refine hquiet.takes (takes_prepareMedia hok (permits_acts ..) hwebrtc (fun _ => ?_) fun hne => ?_)
    · rw [hquiet.slot]
      exact hincoming
    · exact absurd rfl hne

theorem takes_rejectIncomingCall (h : c.Ok) :
    Takes (CallSlot.Acts username input) c c.rejectIncomingCall := by
  rw [rejectIncomingCall]
  split_ifs with hphase
  · exact Quiet.stay ⟨rfl, rfl, rfl⟩ h .stay
  · refine takes_leave h (permits_acts ..) ?_
    show c.call.phase.view.LeavesBy _
    rw [not_not.mp hphase]
    rfl

theorem takes_cancelOutgoingCall (h : c.Ok) :
    Takes (CallSlot.Acts username input) c c.cancelOutgoingCall := by
  rw [cancelOutgoingCall]
  split_ifs with hphase
  · exact Quiet.stay ⟨rfl, rfl, rfl⟩ h .stay
  · refine takes_leave h (permits_acts ..) ?_
    show c.call.phase.view.LeavesBy _
    rw [not_not.mp hphase]
    exact .inl rfl

theorem leavesBy_hangup (hphase : c.call.phase = .connecting ∨ c.call.phase = .inCall) :
    c.slot.view.LeavesBy .hangup := by
  show c.call.phase.view.LeavesBy _
  rcases hphase with hphase | hphase
  · rw [hphase]
    rfl
  · rw [hphase]
    rfl

theorem takes_hangupActiveCall (h : c.Ok) :
    Takes (CallSlot.Acts username input) c c.hangupActiveCall := by
  rw [hangupActiveCall]
  split_ifs with hphase
  · exact Quiet.stay ⟨rfl, rfl, rfl⟩ h .stay
  · exact takes_leave h (permits_acts ..) (leavesBy_hangup (by tauto))

theorem takes_dismissCall (h : c.Ok) (hphase : c.call.phase = .finished) :
    Takes (CallSlot.Acts username input) c c.resetCallState := by
  obtain ⟨hsent, husername, hview, -⟩ := resetCallState_eq c
  refine ⟨husername, h.toTidy.resetCallState, [], ?_, .reset ?_ hview⟩
  · rw [hsent, List.append_nil]
  · show c.call.phase.view = .inactive
    rw [hphase]
    rfl

theorem takes_fireTimeout (h : c.Ok) : Takes (CallSlot.Acts username input) c c.fireTimeout := by
  have hcleared : c.clearCallTimeout.Ok := h.sameSlot rfl rfl
  have hquiet : Quiet c c.clearCallTimeout := ⟨rfl, rfl, rfl⟩
  rw [fireTimeout]
  split
  · exact Quiet.stay ⟨rfl, rfl, rfl⟩ h .stay
  · dsimp only
    split_ifs with hphase
    · refine hquiet.takes (takes_leave hcleared (permits_acts ..) ?_)
      show c.clearCallTimeout.call.phase.view.LeavesBy _
      rw [hphase.1]
      exact .inr rfl
    · exact hquiet.stay hcleared .stay
  · dsimp only
    split_ifs with hphase
    · exact hquiet.takes (takes_leave hcleared (permits_acts ..) (leavesBy_hangup (.inl hphase.1)))
    · exact hquiet.stay hcleared .stay

/-- **What a client does on its own.** -/
theorem takes_onInput (h : c.Ok) (input : ClientInput) (hallows : c.allows input) :
    Takes (CallSlot.Acts c.username input) c (c.onInput input) := by
  cases input with
  | startVideoCall peer callId => exact takes_startVideoCall h peer callId
  | acceptIncomingCall => exact takes_acceptIncomingCall h
  | rejectIncomingCall => exact takes_rejectIncomingCall h
  | cancelOutgoingCall => exact takes_cancelOutgoingCall h
  | hangupActiveCall => exact takes_hangupActiveCall h
  | dismissCall => exact takes_dismissCall h hallows
  | timeout => exact takes_fireTimeout h
  | settle index settled => exact takes_settle h index settled
  | connection w event => exact takes_onConnectionEvent h hallows

/-! ### Messages -/

variable {message : ServerMessage}

theorem takes_handleInvite (h : c.Ok) (htype : message.type = .event .invite) :
    Takes (CallSlot.Reacts message) c (c.handleInvite message) := by
  rw [handleInvite]
  by_cases hnobody : message.sender = [] ∨ message.callId = []
  · rw [if_pos hnobody]
    exact Quiet.stay ⟨rfl, rfl, rfl⟩ h (.nobody htype hnobody)
  rw [if_neg hnobody]
  by_cases hcurrent : c.hasCurrentCall
  · rw [if_pos hcurrent]
    exact ⟨rfl, h.sendMessage _, _, rfl, .decline htype (hasCurrentCall_iff.mp hcurrent)⟩
  rw [if_neg hcurrent]
  have hinactive : c.slot.view = .inactive :=
    hasCurrentCall_eq_false_iff.mp (Bool.not_eq_true _ ▸ hcurrent)
  obtain ⟨hsender, hid⟩ := not_or.mp hnobody
  dsimp only
  generalize hdismissed : (if c.call.phase = .finished then c.resetCallState else c) = c₀
  obtain ⟨hok, hnone, hsent, husername⟩ := dismissed_spec h hinactive hdismissed.symm
  refine ⟨husername, hok.toTidy.withCall hnone hnone fun _ => ⟨hid, hsender⟩, [], ?_,
    .ring htype hsender hid hinactive⟩
  rw [List.append_nil]
  exact hsent

/-- The steps with which a client in an accepted call takes signaling about it. -/
theorem permits_signaling (htype : message.type.Signaling) (hid : message.callId = c.call.callId)
    (htalking : c.slot.view = .talking) : Permits (CallSlot.Reacts message) c.slot := by
  refine ⟨.signaled htype, fun {type payload} hleave => ?_⟩
  rw [htalking] at hleave
  rw [show type = .hangup from hleave]
  exact .hangup htype hid htalking

/-- A caller without a `WebRtcCall` makes one, and asks for the media. -/
theorem Ok.startAsCaller (h : c.Ok) (hnone : c.call.webrtc = none) (htalking : c.slot.view = .talking)
    (hdirection : c.call.direction = .outgoing) (callId : Bytes) :
    (c.ensureWebRtc.2.startAsCaller c.ensureWebRtc.1 callId).Ok ∧
      Quiet c (c.ensureWebRtc.2.startAsCaller c.ensureWebRtc.1 callId) := by
  obtain ⟨hok, hquiet, hw⟩ := ensureWebRtc_spec h (.inr htalking)
  have hfresh : (c.ensureWebRtc.2.webrtcs c.ensureWebRtc.1).localStream = false := by
    rw [ensureWebRtc]
    split
    · next w hw => exact absurd (hnone.symm.trans hw) nofun
    · show (Function.update c.webrtcs c.made _ c.made).localStream = false
      rw [Function.update_self]
  rw [WebClient.startAsCaller, prepareMedia, if_neg]
  · refine ⟨hok.requestMedia hw fun _ _ => ⟨?_, ?_⟩, hquiet.username, hquiet.sent, hquiet.slot⟩
    · rw [hquiet.slot, htalking]
    · intro d hd
      obtain rfl := Option.some.inj hd
      exact (congrArg CallSlot.direction hquiet.slot).trans hdirection
  · rintro ⟨hready, -⟩
    exact absurd (hfresh.symm.trans hready) (by decide)

/-- The caller learns that the call has been accepted. -/
theorem takes_accept (h : c.Ok) (htype : message.type = .event .accept)
    (hid : message.callId = c.call.callId) (hphase : c.call.phase = .outgoing)
    (hdirection : c.call.direction = .outgoing) :
    Takes (CallSlot.Reacts message) c
      (let c := (c.clearCallTimeout.withPhase .connecting).startMediaConnectionTimeout
       let (w, c) := c.ensureWebRtc
       c.startAsCaller w c.call.callId) := by
  have hview : c.slot.view = .outgoing := congrArg CallPhase.view hphase
  have hnone : c.call.webrtc = none := by
    cases hw : c.call.webrtc with
    | none => rfl
    | some w =>
      rcases h.answered w hw with hview' | hview'
      · exact absurd (hview.symm.trans hview') (by decide)
      · exact absurd (hview.symm.trans hview') (by decide)
  have hnamed : c.call.callId ≠ [] ∧ c.call.peer ≠ [] := h.named (by rw [hview]; decide)
  have hok : ((c.clearCallTimeout.withPhase .connecting).startMediaConnectionTimeout).Ok :=
    h.toTidy.withCall hnone hnone fun _ => hnamed
  dsimp only
  obtain ⟨hok', hquiet⟩ := hok.startAsCaller hnone rfl hdirection
    ((c.clearCallTimeout.withPhase .connecting).startMediaConnectionTimeout).ensureWebRtc.2.call.callId
  refine ⟨hquiet.username, hok', [], ?_, ?_⟩
  · rw [List.append_nil]
    exact hquiet.sent
  · rw [hquiet.slot]
    exact .connect htype hid hview

/-- A client in an accepted call takes signaling about it. -/
theorem takes_signaling (h : c.Ok) (htype : message.type.Signaling)
    (hid : message.callId = c.call.callId) {f : ℕ → WebClient → WebClient}
    (hf : ∀ w (c' : WebClient), c'.Ok → c'.slot = c.slot → c.slot.view = .talking →
      c'.call.webrtc = some w → Permits (CallSlot.Reacts message) c'.slot →
        Takes (CallSlot.Reacts message) c' (f w c')) :
    Takes (CallSlot.Reacts message) c
      (if c.call.phase ≠ .connecting ∧ c.call.phase ≠ .inCall then c
        else f c.ensureWebRtc.1 c.ensureWebRtc.2) := by
  split_ifs with hphase
  · exact Quiet.stay ⟨rfl, rfl, rfl⟩ h (.signaled htype)
  · have htalking : c.slot.view = .talking := by
      show c.call.phase.view = .talking
      have hor : c.call.phase = .connecting ∨ c.call.phase = .inCall := by tauto
      rcases hor with hphase | hphase
      · rw [hphase]
        rfl
      · rw [hphase]
        rfl
    obtain ⟨hok, hquiet, hw⟩ := ensureWebRtc_spec h (.inr htalking)
    refine hquiet.takes (hf _ _ hok hquiet.slot htalking hw ?_)
    rw [hquiet.slot]
    exact permits_signaling htype hid htalking

theorem takes_addIceCandidate (h : c.Ok) (hR : Permits (CallSlot.Reacts message) c.slot)
    (hw : c.call.webrtc = some w) (htalking : c.slot.view = .talking) (callId candidate : Bytes) :
    Takes (CallSlot.Reacts message) c (c.addIceCandidate w callId candidate) := by
  rw [addIceCandidate]
  split_ifs
  · exact Quiet.stay ⟨rfl, rfl, rfl⟩ h hR.stay
  split
  · refine (quiet_await ..).stay (h.await (h.made w hw) fun _ _ => ⟨htalking, nofun⟩) hR.stay
  · exact (quiet_withWebRtc ..).stay (h.withWebRtc hw fun _ => htalking) hR.stay

/-- **What a client does upon a message.** -/
theorem takes_handleCallProtocolMessage (h : c.Ok)
    (hdirection : message.callId = c.call.callId →
      (message.type = .event .accept → c.call.phase = .outgoing → c.call.direction = .outgoing) ∧
        (message.type = .event .offer → c.slot.view = .talking → c.call.direction = .incoming)) :
    Takes (CallSlot.Reacts message) c (c.handleCallProtocolMessage message) := by
  rw [handleCallProtocolMessage]
  by_cases hinvite : message.type = .event .invite
  · rw [if_pos hinvite]
    exact takes_handleInvite h hinvite
  rw [if_neg hinvite]
  by_cases hother : message.callId = [] ∨ message.callId ≠ c.call.callId
  · rw [if_pos hother]
    exact Quiet.stay ⟨rfl, rfl, rfl⟩ h (.other hinvite hother)
  rw [if_neg hother]
  have hid : message.callId = c.call.callId := not_not.mp (not_or.mp hother).2
  obtain ⟨haccept, hoffer⟩ := hdirection hid
  split
  · next htype =>
    by_cases hphase : c.call.phase = .outgoing
    · rw [if_neg (not_not.mpr hphase)]
      exact takes_accept h htype hid hphase (haccept htype hphase)
    · rw [if_pos hphase]
      refine Quiet.stay ⟨rfl, rfl, rfl⟩ h (.late htype fun hview => hphase ?_)
      revert hview
      show c.call.phase.view = _ → _
      cases c.call.phase <;> simp [CallPhase.view]
  · next htype =>
    refine takes_signaling (f := fun w c => c.receiveOffer w c.call.callId) h
      (by rw [htype]; trivial) hid ?_
    intro w c' hok hslot htalking hw hR
    refine takes_prepareMedia hok hR hw nofun fun _ _ => ⟨hslot ▸ htalking, fun d hd => ?_⟩
    obtain rfl := Option.some.inj hd
    exact (congrArg CallSlot.direction hslot).trans (hoffer htype htalking)
  · next htype =>
    refine takes_signaling (f := fun w c => c.receiveAnswer w c.call.callId) h
      (by rw [htype]; trivial) hid ?_
    intro w c' hok hslot htalking hw hR
    exact takes_awaitPeerConnection hok hR (hok.made w hw) fun _ => ⟨hslot ▸ htalking, nofun⟩
  · next htype =>
    refine takes_signaling (f := fun w c => c.addIceCandidate w c.call.callId message.candidate) h
      (by rw [htype]; trivial) hid ?_
    intro w c' hok hslot htalking hw hR
    exact takes_addIceCandidate hok hR hw (hslot ▸ htalking) ..
  · next haccept' hoffer' hanswer' hcandidate' =>
    obtain ⟨hslot, hsent, husername⟩ := finishCall_slot c
    refine ⟨husername, h.toTidy.finishCall, [], ?_, ?_⟩
    · rw [hsent, List.append_nil]
    · rw [hslot]
      refine .ended ?_ hid
      cases htype : message.type with
      | busy => trivial
      | error => trivial
      | event type => cases type <;> simp_all [NoticeType.Ending]

end

end WebClient

end ChatService
